import NgFile.Proofs.TemplateGrammar
import NgFile.Scaffold

/-!
# Escaped templates

An escaped text between grave accents is read back as exactly one template literal
without substitutions, whatever text is escaped and whatever follows.  The induction
is over the text that is escaped; at each step the grammar has a single reading.
-/

namespace NgFile

namespace Scaffold

/-! ## Three replacements in one pass -/

def replaceChar (old : Char) (new : Text) (t : Text) : Text :=
  t.flatMap fun c => if c = old then new else [c]

/-- Put `new` for every occurrence of two neighbouring characters, from left to right. -/
def replacePair (first second : Char) (new : Text) : Text → Text
  | [] => []
  | [c] => [c]
  | c :: d :: rest =>
      if c = first ∧ d = second then new ++ replacePair first second new rest
      else c :: replacePair first second new (d :: rest)

theorem replaceChar_cons (old : Char) (new : Text) (c : Char) (t : Text) :
    replaceChar old new (c :: t) = (if c = old then new else [c]) ++ replaceChar old new t := rfl

theorem replacePair_cons {first second : Char} {new : Text} {c : Char} {t : Text}
    (h : c = first → t.head? ≠ some second) :
    replacePair first second new (c :: t) = c :: replacePair first second new t := by
  cases t with
  | nil => rfl
  | cons d rest =>
      have hpair : ¬ (c = first ∧ d = second) := fun ⟨hc, hd⟩ => h hc (by simp [hd])
      rw [replacePair, if_neg hpair]

def escapeCharacters (t : Text) : Text :=
  replaceChar Text.graveAccent ['\\', Text.graveAccent] (replaceChar '\\' ['\\', '\\'] t)

theorem escapeCharacters_cons (c : Char) (t : Text) :
    escapeCharacters (c :: t) =
      (if c = '\\' ∨ c = Text.graveAccent then ['\\', c] else [c]) ++ escapeCharacters t := by
  unfold escapeCharacters
  rw [replaceChar_cons]
  by_cases hbackslash : c = '\\'
  · subst hbackslash
    rfl
  · by_cases hgrave : c = Text.graveAccent
    · subst hgrave
      rfl
    · simp [hbackslash, hgrave, replaceChar_cons]

theorem head?_escapeCharacters {t : Text} {c : Char} (hc : c ≠ '\\') (ht : t.head? ≠ some c) :
    (escapeCharacters t).head? ≠ some c := by
  cases t with
  | nil => simp [escapeCharacters, replaceChar]
  | cons d rest =>
      rw [escapeCharacters_cons]
      split
      · simpa using hc.symm
      · simpa using ht

/--
Escaping backslashes, then grave accents, then the openings of substitutions, each in the whole
text, is escaping them all in one pass: no replacement makes or breaks what a later one looks for.
-/
theorem escapeTemplate_eq_replacements (t : Text) :
    escapeTemplate t = replacePair '$' '{' ['\\', '$', '{'] (escapeCharacters t) := by
  induction t using escapeTemplate.induct with
  | case1 =>
      rfl
  | case2 rest ih =>
      rw [escapeTemplate, ih, escapeCharacters_cons, escapeCharacters_cons]
      rfl
  | case3 c rest hbrace hescape ih =>
      rw [escapeTemplate.eq_3 c rest hbrace, if_pos hescape, ih, escapeCharacters_cons,
        if_pos hescape]
      have hc : c ≠ '$' := by rcases hescape with rfl | rfl <;> decide
      rw [List.cons_append, List.cons_append, List.nil_append,
        replacePair_cons fun h => absurd h (by decide), replacePair_cons fun h => absurd h hc]
  | case4 c rest hbrace hescape ih =>
      rw [escapeTemplate.eq_3 c rest hbrace, if_neg hescape, ih, escapeCharacters_cons,
        if_neg hescape]
      refine (replacePair_cons fun hc => head?_escapeCharacters (by decide) fun hrest => ?_).symm
      cases rest with
      | nil => simp at hrest
      | cons d tail => exact hbrace tail hc (by rw [Option.some.inj hrest])

end Scaffold

namespace TemplateGrammar

open Syntax

/-! ## Heads with a single reading -/

theorem lineEnd_head {s rest : Text} {c : Char} (h : LineEnd s c rest) :
    ∃ d tail, s = d :: tail ∧ isLineEnd d = true := by
  cases h with
  | lineFeed => exact ⟨_, _, rfl, by decide⟩
  | carriageReturn => exact ⟨_, _, rfl, by decide⟩
  | pair => exact ⟨_, _, rfl, by decide⟩
  | separator c rest h => exact ⟨_, _, rfl, by rcases h with h | h <;> simp [isLineEnd, h]⟩

theorem not_lineEnd {c : Char} {s rest : Text} {d : Char} (hc : isLineEnd c = false) :
    ¬ LineEnd (c :: s) d rest := by
  intro h
  obtain ⟨e, tail, heq, he⟩ := lineEnd_head h
  obtain ⟨rfl, -⟩ := List.cons.inj heq
  simp [hc] at he

theorem lineEnd_pair_iff {s rest : Text} {c : Char} :
    LineEnd ('\r' :: '\n' :: s) c rest ↔ c = '\n' ∧ rest = s := by
  constructor
  · intro h
    cases h with
    | carriageReturn _ h => exact absurd rfl h
    | pair => exact ⟨rfl, rfl⟩
    | separator _ _ h => exact absurd h (by decide)
  · rintro ⟨rfl, rfl⟩
    exact .pair rest

/-- A single character that ends a line; a carriage return denotes a line feed. -/
theorem lineEnd_single_iff {c : Char} {s rest : Text} {d : Char} (hline : isLineEnd c = true)
    (hpair : c = '\r' → s.head? ≠ some '\n') :
    LineEnd (c :: s) d rest ↔ d = (if c = '\r' then '\n' else c) ∧ rest = s := by
  constructor
  · intro h
    cases h with
    | lineFeed => exact ⟨by decide, rfl⟩
    | carriageReturn => exact ⟨rfl, rfl⟩
    | pair => exact absurd rfl (hpair rfl)
    | separator _ _ h =>
        have hreturn : c ≠ '\r' := by
          rintro rfl
          exact absurd h (by decide)
        exact ⟨by rw [if_neg hreturn], rfl⟩
  · rintro ⟨rfl, rfl⟩
    by_cases hreturn : c = '\r'
    · subst hreturn
      exact .carriageReturn rest (hpair rfl)
    · rw [if_neg hreturn]
      by_cases hfeed : c = '\n'
      · subst hfeed
        exact .lineFeed rest
      · simp only [isLineEnd, Bool.or_eq_true, beq_iff_eq] at hline
        exact .separator c rest (by grind)

/-- A character that is none of the special ones is read as itself. -/
theorem character_source_iff {c : Char} {s : Text} {p : Piece} {rest : Text}
    (hgrave : c ≠ Text.graveAccent) (hbackslash : c ≠ '\\') (hdollar : c ≠ '$')
    (hline : isLineEnd c = false) :
    Character (c :: s) p rest ↔ p = .source c ∧ rest = s := by
  constructor
  · intro h
    cases h with
    | dollar => exact absurd rfl hdollar
    | source => exact ⟨rfl, rfl⟩
    | lineEnd h => exact absurd h (not_lineEnd hline)
    | continuation => exact absurd rfl hbackslash
    | escape => exact absurd rfl hbackslash
  · rintro ⟨rfl, rfl⟩
    exact .source c rest hgrave hbackslash hdollar hline

/-- A dollar sign is read as itself, unless an opening brace follows. -/
theorem character_dollar_iff {s : Text} {p : Piece} {rest : Text} :
    Character ('$' :: s) p rest ↔ s.head? ≠ some '{' ∧ p = .source '$' ∧ rest = s := by
  constructor
  · intro h
    cases h with
    | dollar _ h => exact ⟨h, rfl, rfl⟩
    | source _ _ _ _ hdollar => exact absurd rfl hdollar
    | lineEnd h => exact absurd h (not_lineEnd (by decide))
  · rintro ⟨h, rfl, rfl⟩
    exact .dollar rest h

theorem not_character_grave {s : Text} {p : Piece} {rest : Text} :
    ¬ Character (Text.graveAccent :: s) p rest := by
  intro h
  cases h with
  | source _ _ hgrave => exact hgrave rfl
  | lineEnd h => exact not_lineEnd (by decide) h

/--
A backslash in front of a character that is no digit, no `x` and no `u` escapes that
character.
-/
theorem character_escape_iff {c : Char} {s : Text} {p : Piece} {rest : Text}
    (hdigit : c.isDigit = false) (hx : c ≠ 'x') (hu : c ≠ 'u') (hline : isLineEnd c = false) :
    Character ('\\' :: c :: s) p rest ↔ p = .characterEscape c ∧ rest = s := by
  constructor
  · intro h
    cases h with
    | source _ _ _ hbackslash => exact absurd rfl hbackslash
    | lineEnd h => exact absurd h (not_lineEnd (by decide))
    | continuation h => exact absurd h (not_lineEnd hline)
    | escape h =>
        cases h with
        | character => exact ⟨rfl, rfl⟩
        | nul => exact absurd hdigit (by decide)
        | hex => exact absurd rfl hx
        | unicode => exact absurd rfl hu
        | codePoint => exact absurd rfl hu
        | zeroDigit => exact absurd hdigit (by decide)
        | digit _ _ h => simp [hdigit] at h
        | shortHex => exact absurd rfl hx
        | shortUnicode => exact absurd rfl hu
        | noCodePoint => exact absurd rfl hu
  · rintro ⟨rfl, rfl⟩
    exact .escape (.character c rest hdigit hx hu hline)

/-- Characters that end a line are read as the end of that line. -/
theorem character_lineEnd_iff {c : Char} {s : Text} {p : Piece} {rest : Text}
    (hline : isLineEnd c = true) :
    Character (c :: s) p rest ↔ ∃ d, p = .lineEnd d ∧ LineEnd (c :: s) d rest := by
  constructor
  · intro h
    cases h with
    | dollar => exact absurd hline (by decide)
    | source _ _ _ _ _ h => simp [hline] at h
    | lineEnd h => exact ⟨_, rfl, h⟩
    | continuation => exact absurd hline (by decide)
    | escape => exact absurd hline (by decide)
  · rintro ⟨d, rfl, h⟩
    exact .lineEnd h

/-! ## The pieces of an escaped text -/

/-- What a character without an escape is read as, when it begins no longer piece. -/
def plainPiece (c : Char) : Piece :=
  if isLineEnd c then .lineEnd (if c = '\r' then '\n' else c) else .source c

/-- How an escaped text is read, piece by piece. -/
def escapedPieces : Text → List Piece
  | [] => []
  | '$' :: '{' :: rest => .characterEscape '$' :: .source '{' :: escapedPieces rest
  | '\r' :: '\n' :: rest => .lineEnd '\n' :: escapedPieces rest
  | c :: rest =>
      (if c = '\\' ∨ c = Text.graveAccent then .characterEscape c else plainPiece c) ::
        escapedPieces rest

theorem head?_ne_of_forall {t : Text} {c : Char} (h : ∀ rest, t = c :: rest → False) :
    t.head? ≠ some c := by
  cases t with
  | nil => simp
  | cons d rest =>
      rintro hd
      obtain rfl := Option.some.inj hd
      exact h rest rfl

/-- A character without an escape has one reading, unless it begins a longer piece. -/
theorem character_plain_iff {c : Char} {s : Text} {p : Piece} {rest : Text}
    (hgrave : c ≠ Text.graveAccent) (hbackslash : c ≠ '\\')
    (hbrace : c = '$' → s.head? ≠ some '{') (hfeed : c = '\r' → s.head? ≠ some '\n') :
    Character (c :: s) p rest ↔ p = plainPiece c ∧ rest = s := by
  unfold plainPiece
  by_cases hline : isLineEnd c = true
  · rw [character_lineEnd_iff hline, if_pos hline]
    simp only [lineEnd_single_iff hline hfeed]
    constructor
    · rintro ⟨d, rfl, rfl, rfl⟩
      exact ⟨rfl, rfl⟩
    · rintro ⟨rfl, rfl⟩
      exact ⟨_, rfl, rfl, rfl⟩
  · rw [if_neg hline]
    by_cases hdollar : c = '$'
    · subst hdollar
      rw [character_dollar_iff]
      exact and_iff_right (hbrace rfl)
    · exact character_source_iff hgrave hbackslash hdollar (by simpa using hline)

/-- An escaped text begins as the text does, with a backslash, or with what stands after it. -/
theorem head?_escapeTemplate_append {t after : Text} {c : Char} (hbackslash : c ≠ '\\')
    (hgrave : c ≠ Text.graveAccent) (ht : t.head? ≠ some c) :
    (Scaffold.escapeTemplate t ++ Text.graveAccent :: after).head? ≠ some c := by
  unfold Scaffold.escapeTemplate
  split
  · simpa using hgrave.symm
  · simpa using hbackslash.symm
  · rename_i d rest _
    have hd : d ≠ c := by simpa using ht
    split
    · simpa using hbackslash.symm
    · simpa using hd

/-- What ends the characters of a template: its closing grave accent, or a substitution. -/
def Ends (s : Text) : Prop :=
  ∃ rest, s = Text.graveAccent :: rest ∨ s = '$' :: '{' :: rest

theorem not_ends {c : Char} {s : Text} (hgrave : c ≠ Text.graveAccent) (hdollar : c ≠ '$') :
    ¬ Ends (c :: s) := by
  rintro ⟨rest, h | h⟩
  · exact hgrave (List.cons.inj h).1
  · exact hdollar (List.cons.inj h).1

/-- Where the first piece and the pieces after it have one reading, so has the whole. -/
theorem characters_cons_iff {s rest after : Text} {p : Piece} {pieces : List Piece} {P : Prop}
    (hs : ¬ Ends s) (hafter : Ends after)
    (hhead : ∀ q r, Character s q r ↔ q = p ∧ r = rest)
    (htail : ∀ qs, Characters rest qs after ↔ qs = pieces ∧ P) (ps : List Piece) :
    Characters s ps after ↔ ps = p :: pieces ∧ P := by
  constructor
  · intro h
    cases h with
    | nil => exact absurd hafter hs
    | cons head tail =>
        obtain ⟨rfl, rfl⟩ := (hhead _ _).1 head
        obtain ⟨rfl, hP⟩ := (htail _).1 tail
        exact ⟨rfl, hP⟩
  · rintro ⟨rfl, hP⟩
    exact .cons ((hhead _ _).2 ⟨rfl, rfl⟩) ((htail _).2 ⟨rfl, hP⟩)

/--
Up to a closing grave accent or a substitution, an escaped text is read in exactly one way, and
that ends in front of the grave accent that follows it.
-/
theorem characters_escapeTemplate_iff (t after : Text) {rest : Text} (hrest : Ends rest)
    (ps : List Piece) :
    Characters (Scaffold.escapeTemplate t ++ Text.graveAccent :: after) ps rest ↔
      ps = escapedPieces t ∧ rest = Text.graveAccent :: after := by
  induction t using escapedPieces.induct generalizing ps with
  | case1 =>
      constructor
      · intro h
        cases h with
        | nil => exact ⟨rfl, rfl⟩
        | cons head tail => exact absurd head not_character_grave
      · rintro ⟨rfl, rfl⟩
        exact .nil _
  | case2 t ih =>
      simp only [Scaffold.escapeTemplate, List.cons_append, escapedPieces]
      refine characters_cons_iff (not_ends (by decide) (by decide)) hrest
        (fun q r => character_escape_iff (by decide) (by decide) (by decide) (by decide)) ?_ ps
      exact characters_cons_iff (not_ends (by decide) (by decide)) hrest
        (fun q r => character_source_iff (by decide) (by decide) (by decide) (by decide)) ih
  | case3 t ih =>
      change Characters ('\r' :: '\n' :: (Scaffold.escapeTemplate t ++ Text.graveAccent :: after))
        ps rest ↔ ps = .lineEnd '\n' :: escapedPieces t ∧ rest = Text.graveAccent :: after
      refine characters_cons_iff (not_ends (by decide) (by decide)) hrest (fun q r => ?_) ih ps
      rw [character_lineEnd_iff (by decide)]
      simp only [lineEnd_pair_iff]
      exact ⟨by rintro ⟨d, rfl, rfl, rfl⟩; exact ⟨rfl, rfl⟩,
        by rintro ⟨rfl, rfl⟩; exact ⟨_, rfl, rfl, rfl⟩⟩
  | case4 c t hbrace hpair ih =>
      rw [Scaffold.escapeTemplate.eq_3 c t hbrace, escapedPieces.eq_4 c t hbrace hpair]
      by_cases hescape : c = '\\' ∨ c = Text.graveAccent
      · rw [if_pos hescape, if_pos hescape]
        refine characters_cons_iff (not_ends (by decide) (by decide)) hrest
          (fun q r => ?_) ih ps
        rcases hescape with rfl | rfl <;>
          exact character_escape_iff (by decide) (by decide) (by decide) (by decide)
      · rw [if_neg hescape, if_neg hescape]
        obtain ⟨hbackslash, hgrave⟩ := not_or.1 hescape
        -- The character makes no pair with the next one: an escape may come between the two,
        -- but no line feed and no brace.
        have hfeed (hc : c = '\r') :
            (Scaffold.escapeTemplate t ++ Text.graveAccent :: after).head? ≠ some '\n' :=
          head?_escapeTemplate_append (by decide) (by decide)
            (head?_ne_of_forall fun rest => hpair rest hc)
        have hdollar (hc : c = '$') :
            (Scaffold.escapeTemplate t ++ Text.graveAccent :: after).head? ≠ some '{' :=
          head?_escapeTemplate_append (by decide) (by decide)
            (head?_ne_of_forall fun rest => hbrace rest hc)
        refine characters_cons_iff ?_ hrest
          (fun q r => character_plain_iff hgrave hbackslash hdollar hfeed) ih ps
        rintro ⟨s, h | h⟩
        · exact hgrave (List.cons.inj h).1
        · obtain ⟨hc, htail⟩ := List.cons.inj h
          exact hdollar hc (congrArg List.head? htail)

/-! ## The value of an escaped text -/

theorem value_cons (p : Piece) (ps : List Piece) :
    value (p :: ps) = p.value.bind fun units => (value ps).map fun more => units ++ more := by
  unfold value
  cases hp : p.value with
  | none => simp [List.mapM_cons, hp]
  | some units =>
      cases hps : ps.mapM Piece.value with
      | none => simp [List.mapM_cons, hp, hps]
      | some more => simp [List.mapM_cons, hp, hps]

theorem unitsOf_cons (c : Char) (t : Text) :
    unitsOf (c :: t) = codeUnits c.toNat ++ unitsOf t := rfl

/-- The pieces of an escaped text denote the text, with its line ends as line feeds. -/
theorem value_escapedPieces (t : Text) :
    value (escapedPieces t) = some (unitsOf (Literal.withLineFeeds t)) := by
  induction t using escapedPieces.induct with
  | case1 =>
      rfl
  | case2 t ih =>
      rw [escapedPieces, value_cons, value_cons, ih]
      rfl
  | case3 t ih =>
      rw [escapedPieces, value_cons, ih]
      rfl
  | case4 c t hbrace hpair ih =>
      rw [escapedPieces.eq_4 c t hbrace hpair, value_cons, ih]
      by_cases hescape : c = '\\' ∨ c = Text.graveAccent
      · rw [if_pos hescape]
        rcases hescape with rfl | rfl <;> rfl
      · rw [if_neg hescape]
        by_cases hreturn : c = '\r'
        · subst hreturn
          rw [Literal.withLineFeeds.eq_3 t fun rest => hpair rest rfl]
          rfl
        · rw [Literal.withLineFeeds.eq_4 c t (fun _ h => absurd h hreturn) hreturn, unitsOf_cons]
          have hvalue : (plainPiece c).value = some (codeUnits c.toNat) := by
            rw [plainPiece, if_neg hreturn]
            split <;> rfl
          rw [hvalue]
          rfl

theorem mem_codeUnits_thirteen {n : Nat} (h : 13 ∈ codeUnits n) : n = 13 := by
  unfold codeUnits at h
  split at h
  · exact (List.mem_singleton.1 h).symm
  · simp only [List.mem_cons, List.not_mem_nil, or_false] at h
    omega

theorem thirteen_mem_unitsOf (t : Text) : 13 ∈ unitsOf t ↔ '\r' ∈ t := by
  unfold unitsOf
  rw [List.mem_flatMap]
  constructor
  · rintro ⟨c, hc, h⟩
    have hcode : c.toNat = '\r'.toNat := mem_codeUnits_thirteen h
    obtain rfl : c = '\r' := Char.toNat_inj.1 hcode
    exact hc
  · intro h
    exact ⟨'\r', h, by decide⟩

theorem return_not_mem_withLineFeeds (t : Text) : '\r' ∉ Literal.withLineFeeds t := by
  induction t using Literal.withLineFeeds.induct with
  | case1 => simp [Literal.withLineFeeds]
  | case2 rest ih => simpa [Literal.withLineFeeds] using ih
  | case3 rest hpair ih =>
      rw [Literal.withLineFeeds.eq_3 rest hpair]
      simpa using ih
  | case4 c rest hpair hreturn ih =>
      rw [Literal.withLineFeeds.eq_4 c rest hpair hreturn]
      simpa [Ne.symm hreturn] using ih

theorem withLineFeeds_of_not_mem {t : Text} (h : '\r' ∉ t) : Literal.withLineFeeds t = t := by
  induction t using Literal.withLineFeeds.induct with
  | case1 => rfl
  | case2 rest ih => simp at h
  | case3 rest hpair ih => simp at h
  | case4 c rest hpair hreturn ih =>
      rw [Literal.withLineFeeds.eq_4 c rest hpair hreturn, ih fun hmem => h (by simp [hmem])]

/-- Line ends as line feeds change the value of a text exactly if it has a carriage return. -/
theorem unitsOf_withLineFeeds_eq_iff (t : Text) :
    unitsOf (Literal.withLineFeeds t) = unitsOf t ↔ '\r' ∉ t := by
  constructor
  · intro h hmem
    have hunit := (thirteen_mem_unitsOf t).2 hmem
    rw [← h, thirteen_mem_unitsOf] at hunit
    exact return_not_mem_withLineFeeds t hunit
  · intro h
    rw [withLineFeeds_of_not_mem h]

/-! ## The literal -/

/-- A piece that is no escape, or the escape of one of the three characters that are escaped. -/
def Piece.IsKept (p : Piece) : Prop :=
  (∃ c, p = .source c ∨ p = .lineEnd c) ∨
    p = .characterEscape '\\' ∨ p = .characterEscape Text.graveAccent ∨ p = .characterEscape '$'

theorem isKept_of_mem_escapedPieces {t : Text} {p : Piece} (h : p ∈ escapedPieces t) :
    p.IsKept := by
  induction t using escapedPieces.induct with
  | case1 =>
      simp [escapedPieces] at h
  | case2 t ih =>
      rcases List.mem_cons.1 h with rfl | h
      · exact .inr (.inr (.inr rfl))
      · rcases List.mem_cons.1 h with rfl | h
        · exact .inl ⟨_, .inl rfl⟩
        · exact ih h
  | case3 t ih =>
      rcases List.mem_cons.1 h with rfl | h
      · exact .inl ⟨_, .inr rfl⟩
      · exact ih h
  | case4 c t hbrace hpair ih =>
      rw [escapedPieces.eq_4 c t hbrace hpair] at h
      rcases List.mem_cons.1 h with rfl | h
      · split
        · rename_i hescape
          rcases hescape with rfl | rfl
          · exact .inr (.inl rfl)
          · exact .inr (.inr (.inl rfl))
        · unfold plainPiece
          split
          · exact .inl ⟨_, .inr rfl⟩
          · exact .inl ⟨_, .inl rfl⟩
      · exact ih h

/--
Whatever text is put into a template literal, and whatever follows the literal: the grammar reads
exactly one template without substitutions there, which ends where the literal ends.  Its only
escapes are those of backslashes, grave accents and dollar signs, and it denotes the text with its
line ends as line feeds, which is the text itself unless that has a carriage return.
-/
theorem templateLiteral_unique_reading (t after : Text) :
    ∃ pieces,
      (∀ ps rest, NoSubstitution (Scaffold.templateLiteral t ++ after) ps rest ↔
        ps = pieces ∧ rest = after) ∧
      (∀ ps rest, ¬ Head (Scaffold.templateLiteral t ++ after) ps rest) ∧
      (∀ p ∈ pieces, p.IsKept) ∧
      value pieces = some (unitsOf (Literal.withLineFeeds t)) ∧
      (value pieces = some (unitsOf t) ↔ '\r' ∉ t) := by
  have hbody (body : Text) (hbody : Scaffold.templateLiteral t ++ after =
      Text.graveAccent :: body) :
      body = Scaffold.escapeTemplate t ++ Text.graveAccent :: after := by
    simpa [Scaffold.templateLiteral] using hbody.symm
  refine ⟨escapedPieces t, fun ps rest => ⟨?_, ?_⟩, ?_, fun p => isKept_of_mem_escapedPieces,
    value_escapedPieces t, ?_⟩
  · rintro ⟨body, hliteral, h⟩
    rw [hbody body hliteral] at h
    obtain ⟨rfl, hrest⟩ := (characters_escapeTemplate_iff t after ⟨_, .inl rfl⟩ ps).1 h
    exact ⟨rfl, (List.cons.inj hrest).2⟩
  · rintro ⟨rfl, rfl⟩
    exact ⟨_, by simp [Scaffold.templateLiteral],
      (characters_escapeTemplate_iff t rest ⟨_, .inl rfl⟩ _).2 ⟨rfl, rfl⟩⟩
  · rintro ps rest ⟨body, hliteral, h⟩
    rw [hbody body hliteral] at h
    obtain ⟨-, hrest⟩ := (characters_escapeTemplate_iff t after ⟨_, .inr rfl⟩ ps).1 h
    exact absurd (List.cons.inj hrest).1 (by decide)
  · rw [value_escapedPieces, Option.some.injEq]
    exact unitsOf_withLineFeeds_eq_iff t

end TemplateGrammar

end NgFile
