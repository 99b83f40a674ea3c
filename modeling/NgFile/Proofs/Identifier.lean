import NgFile.Proofs.ComponentImports
import NgFile.Proofs.OperandReading
import NgFile.Proofs.StringLiteral

/-!
# Identifiers

An identifier is a text that is read as one word, and the word names a variable.  Escapes may
spell a part of it, and a word that is a keyword in some places of the grammar is an identifier
in the others.  An array literal that is put together from identifiers is read back as these
elements.
-/

namespace NgFile

namespace Syntax

namespace Literal

theorem takeWhile_until {stop : Char} {digits : Text} (h : stop ∉ digits) (rest : Text) :
    (digits ++ stop :: rest).takeWhile (· ≠ stop) = digits := by
  induction digits with
  | nil => simp
  | cons c digits ih =>
      obtain ⟨hc, hdigits⟩ := not_or.1 (mt List.mem_cons.2 h)
      have hne : c ≠ stop := Ne.symm hc
      simpa [hne] using ih hdigits

theorem unicodeEscape?_append {t after : Text} {n : Nat}
    (h : unicodeEscape? t = some (n, after)) (u : Text) :
    unicodeEscape? (t ++ u) = some (n, after ++ u) := by
  unfold unicodeEscape? at h
  split at h
  · rename_i rest
    dsimp only at h
    obtain ⟨tail, htail⟩ := List.takeWhile_prefix (· ≠ '}') (l := rest)
    have hplain : '}' ∉ rest.takeWhile (· ≠ '}') := fun hmem => by
      simpa using List.all_eq_true.1 List.all_takeWhile _ hmem
    generalize rest.takeWhile (· ≠ '}') = digits at *
    rw [← htail, List.drop_left] at h
    split at h
    · rename_i tail
      have hdigits := takeWhile_until hplain (tail ++ u)
      rw [List.cons_append, ← htail, List.append_assoc, unicodeEscape?]
      simp only [List.cons_append, hdigits, List.drop_left]
      split at h
      · rename_i hvalue
        split at h
        · rename_i hle
          cases h
          simp [hle]
        · cases h
      · cases h
    · cases h
  · split at h
    · rename_i hvalue
      cases h
      simp [unicodeEscape?, hvalue]
    · cases h
  · cases h

/-! ## Names that are a whole text -/

section Name

variable {isFirst : Bool} {fuel : Nat}

theorem readName?_plain {c : Char} (hc : c ≠ '\\') (rest : Text) :
    readName? (fuel + 1) isFirst (c :: rest) =
      if (if isFirst then isIdStart c else isIdContinue c) then
        (readName? fuel false rest).map fun name =>
          ⟨c :: name.text, name.length + 1, name.escaped⟩
      else some ⟨[], 0, false⟩ := by
  rw [readName?.eq_def]
  simp [hc]

theorem readName?_escape {digits after : Text} {point : Nat}
    (h : unicodeEscape? digits = some (point, after)) :
    readName? (fuel + 1) isFirst ('\\' :: 'u' :: digits) =
      if (if isFirst then isIdStart (Char.ofNat point) else isIdContinue (Char.ofNat point)) then
        (readName? fuel false after).map fun name =>
          ⟨Char.ofNat point :: name.text, 2 + (digits.length - after.length) + name.length, true⟩
      else none := by
  simp [readName?, h]

theorem readName?_end {u : Text} (hu : Lexeme.EndsWord u) (isFirst : Bool) (fuel : Nat) :
    readName? fuel isFirst u = some ⟨[], 0, false⟩ := by
  cases fuel with
  | zero => rfl
  | succ fuel =>
      cases u with
      | nil => rfl
      | cons c rest =>
          obtain ⟨hcontinue, hc⟩ := hu c rfl
          have hstart : isIdStart c = false := by
            simpa [hcontinue] using mt isIdContinue_of_isIdStart (a := isIdStart c = true)
          rw [readName?_plain hc]
          cases isFirst <;> simp [hcontinue, hstart]

/-- A name that is the whole of a text ends there, if what follows does not go on with it. -/
theorem readName?_append {t u : Text} {name : Name} (h : readName? fuel isFirst t = some name)
    (hwhole : name.length = t.length) (hu : Lexeme.EndsWord u) {fuel' : Nat}
    (hfuel : t.length ≤ fuel') : readName? fuel' isFirst (t ++ u) = some name := by
  induction fuel, isFirst, t using readName?.induct generalizing name fuel' with
  | case1 isFirst t =>
      cases h
      obtain rfl := List.length_eq_zero_iff.1 hwhole.symm
      exact readName?_end hu isFirst fuel'
  | case2 fuel isFirst =>
      cases h
      exact readName?_end hu isFirst fuel'
  | case3 fuel isFirst digits point after hescape d hpoint =>
      rename_i ih
      obtain ⟨n, rfl⟩ : ∃ n, fuel' = n + 1 := ⟨fuel' - 1, by simp at hfuel; omega⟩
      have hlength := length_unicodeEscape? hescape
      rw [readName?_escape hescape, if_pos hpoint] at h
      obtain ⟨name', hname', rfl⟩ := Option.map_eq_some_iff.1 h
      simp only [List.length_cons] at hwhole hfuel
      have hcount : (digits ++ u).length - (after ++ u).length = digits.length - after.length := by
        simp only [List.length_append]
        omega
      rw [List.cons_append, List.cons_append, readName?_escape (unicodeEscape?_append hescape u),
        if_pos hpoint, ih hname' (by omega) (by omega), Option.map_some, hcount]
  | case4 fuel isFirst digits point after hescape d =>
      rename_i hpoint
      rw [readName?_escape hescape, if_neg hpoint] at h
      cases h
  | case5 fuel isFirst digits hescape =>
      simp [readName?, hescape] at h
  | case6 fuel isFirst rest hrest =>
      rw [readName?.eq_4 _ _ _ _ hrest, if_pos rfl] at h
      cases h
  | case7 fuel isFirst c rest hc hstart ih =>
      obtain ⟨n, rfl⟩ : ∃ n, fuel' = n + 1 := ⟨fuel' - 1, by simp at hfuel; omega⟩
      rw [readName?_plain hc, if_pos hstart] at h
      obtain ⟨name', hname', rfl⟩ := Option.map_eq_some_iff.1 h
      simp only [List.length_cons] at hwhole hfuel
      rw [List.cons_append, readName?_plain hc, if_pos hstart, ih hname' (by omega) (by omega),
        Option.map_some]
  | case8 fuel isFirst c rest hc hstart =>
      rw [readName?_plain hc, if_neg hstart] at h
      cases h
      cases hwhole

end Name

/-- The name that a text spells as a whole, escapes read. -/
def wholeName? (t : Text) : Option Name :=
  (readName? (t.length + 1) true t).filter fun name => name.length = t.length ∧ t ≠ []

theorem wholeName?_eq_some_iff {t : Text} {name : Name} :
    wholeName? t = some name ↔
      readName? (t.length + 1) true t = some name ∧ name.length = t.length ∧ t ≠ [] := by
  simp [wholeName?, Option.filter_eq_some_iff]

/-- A whole name begins with a character that begins names, or with an escape. -/
theorem exists_cons_of_wholeName? {t : Text} {name : Name} (h : wholeName? t = some name) :
    ∃ c rest, t = c :: rest ∧ (isIdStart c = true ∨ c = '\\') := by
  obtain ⟨hread, hlength, hne⟩ := wholeName?_eq_some_iff.1 h
  obtain ⟨c, rest, rfl⟩ := List.exists_cons_of_ne_nil hne
  refine ⟨c, rest, rfl, ?_⟩
  by_cases hc : c = '\\'
  · exact .inr hc
  · by_cases hstart : isIdStart c = true
    · exact .inl hstart
    · have hempty : some (⟨[], 0, false⟩ : Name) = some name := by
        simpa [readName?_plain hc, hstart] using hread
      cases hempty
      cases hlength

end Literal

open Literal

/-! ## Names as tokens -/

theorem readKind_wholeName {t u : Text} {name : Literal.Name} (h : wholeName? t = some name)
    (hu : Lexeme.EndsWord u) {limit : Nat} (hlimit : t.length ≤ limit) :
    readKind limit (t ++ u) = (wordKind name.text name.escaped, t.length) := by
  obtain ⟨hread, hlength, -⟩ := wholeName?_eq_some_iff.1 h
  obtain ⟨c, rest, rfl, hc⟩ := exists_cons_of_wholeName? h
  have hword : (isIdStart c || c == '\\') = true := by
    simpa using hc
  have hname := readName?_append hread hlength hu (Nat.le_succ_of_le hlimit)
  rw [List.cons_append] at hname ⊢
  simp [readKind, hword, hname, hlength]

/-! ## Names as operands -/

def namesVariable : TokenKind → Bool
  | .name _ => true
  | .keyword k _ => !k.isReserved && k != .kwAwait
  | _ => false

namespace Parser

open Lexeme

variable {self : Productions} {c : Context} {place place' : Place} {rest : List Token} {stop : Nat}
variable {defaults spreads : List Nat} {kind : TokenKind}

theorem at_endsOperand {p : Punct} (hp : p = .comma ∨ p = .bracketClose) :
    At EndsOperand ⟨plainToken (.punct p) place' :: rest, stop, defaults, spreads⟩ :=
  ⟨_, _, _, rfl, by rcases hp with rfl | rfl <;> constructor⟩

theorem keywordOperand_eq {k : Keyword} (h : k.isReserved = false) :
    keywordOperand self k = (do
      let _ ← mark
      let next ← peekAhead 1
      if k == .kwAsync && isWord .kwFunction next && next.gap != .newline then
        functionExpression self
      else
        let name ← bindingName
        pure (.ident name.loc name.text)) := by
  cases k <;> first | rfl | cases h

theorem unaryOp?_keyword {k : Keyword} (h : k.isReserved = false) (escaped : Bool) :
    unaryOp? (plainToken (.keyword k escaped) place) = none := by
  cases k <;> first | rfl | cases h

theorem bindingName_keyword {k : Keyword} (hreserved : k.isReserved = false) (hawait : k ≠ .kwAwait)
    (hyield : c.inYield = false) (escaped : Bool) :
    bindingName c ⟨plainToken (.keyword k escaped) place :: rest, stop, defaults, spreads⟩ =
      .ok (⟨⟨place.start, place.stop, []⟩, k.text⟩, ⟨rest, place.stop, defaults, spreads⟩) := by
  simp [bindingName, bind_apply, mark_cons, peek_cons, context, hyield, isWord, nameText?,
    advanceName, since, pure_apply, hreserved, hawait]

theorem primary_keyword {k : Keyword} (hreserved : k.isReserved = false) (hawait : k ≠ .kwAwait)
    (hyield : c.inYield = false) (escaped : Bool) (p : Punct) :
    primary self c ⟨plainToken (.keyword k escaped) place :: plainToken (.punct p) place' :: rest,
        stop, defaults, spreads⟩ =
      .ok (.ident ⟨place.start, place.stop, []⟩ k.text,
        ⟨plainToken (.punct p) place' :: rest, place.stop, defaults, spreads⟩) := by
  have hfunction : isWord .kwFunction (plainToken (.punct p) place') = false := rfl
  simp [primary, bind_apply, mark_cons, peek_cons, keywordOperand_eq hreserved, peekAhead,
    hfunction, bindingName_keyword hreserved hawait hyield, pure_apply]

/-- No arrow function begins with a keyword that none of its own punctuators follows. -/
theorem guessArrow_keyword (k : Keyword) (escaped : Bool) {token : Token}
    (hnext : isPunct .arrow token = false ∧ isPunct .parenOpen token = false ∧
      isPunct .less token = false) :
    guessArrow (plainToken (.keyword k escaped) place :: token :: rest) = .no := by
  have hfirst (q : Punct) : isPunct q (plainToken (.keyword k escaped) place) = false := rfl
  simp [guessArrow, hfirst, hnext]

section Keyword

variable {k : Keyword} (hreserved : k.isReserved = false) (hawait : k ≠ .kwAwait)
  (hyield : c.inYield = false) (hlimit : 0 < c.limit) {p : Punct}
  (hp : p = .comma ∨ p = .bracketClose) (escaped : Bool)

include hreserved hawait hyield hlimit hp

theorem unary_keyword :
    unary self c ⟨plainToken (.keyword k escaped) place :: plainToken (.punct p) place' :: rest,
        stop, defaults, spreads⟩ =
      .ok (.ident ⟨place.start, place.stop, []⟩ k.text,
        ⟨plainToken (.punct p) place' :: rest, place.stop, defaults, spreads⟩) := by
  have hprimary : primary self c ⟨plainToken (.keyword k escaped) place ::
        plainToken (.punct p) place' :: rest, stop, defaults, spreads⟩ = _ :=
    primary_keyword hreserved hawait hyield escaped p
  have hleft := leftHandSide_of_primary hprimary (at_endsOperand hp).operators.links hlimit
  have hfirst (q : Punct) : isPunct q (plainToken (.keyword k escaped) place) = false := rfl
  have hnext : isPunct .plusPlus (plainToken (.punct p) place') = false ∧
      isPunct .minusMinus (plainToken (.punct p) place') = false := by
    rcases hp with rfl | rfl <;> exact ⟨rfl, rfl⟩
  have hword : isWord .kwAwait (plainToken (.keyword k escaped) place) = false := by
    simpa [isWord] using hawait
  have hupdate : updateExpression self c ⟨plainToken (.keyword k escaped) place ::
        plainToken (.punct p) place' :: rest, stop, defaults, spreads⟩ =
      .ok (.ident ⟨place.start, place.stop, []⟩ k.text,
        ⟨plainToken (.punct p) place' :: rest, place.stop, defaults, spreads⟩) := by
    simp [updateExpression, bind_apply, mark_cons, peek_cons, pure_apply, hfirst, hnext, hleft]
  simp [unary, bind_apply, mark_cons, peek_cons, unaryOp?_keyword hreserved, hfirst, hword, hupdate]

theorem binary_keyword :
    binary self Precedence.comma.rank c ⟨plainToken (.keyword k escaped) place ::
        plainToken (.punct p) place' :: rest, stop, defaults, spreads⟩ =
      .ok (.ident ⟨place.start, place.stop, []⟩ k.text,
        ⟨plainToken (.punct p) place' :: rest, place.stop, defaults, spreads⟩) := by
  have hunary : unary self c ⟨plainToken (.keyword k escaped) place ::
        plainToken (.punct p) place' :: rest, stop, defaults, spreads⟩ = _ :=
    unary_keyword hreserved hawait hyield hlimit hp escaped
  have hends : At EndsOperand
      ⟨plainToken (.punct p) place' :: rest, place.stop, defaults, spreads⟩ := at_endsOperand hp
  have hstep (m : Mark) (e : Expr) :=
    iterate_none (binaryStep_end (c := c) self m Precedence.comma.rank e hends.operators) hlimit
  simp [binary, bind_apply, mark_cons, peek_cons, pure_apply, hunary, hstep]

/-- A keyword that is no reserved word names a variable, if a comma or a bracket follows it. -/
theorem assignment_keyword (returnTypes : Bool) :
    assignment self returnTypes c ⟨plainToken (.keyword k escaped) place ::
        plainToken (.punct p) place' :: rest, stop, defaults, spreads⟩ =
      .ok (.ident ⟨place.start, place.stop, []⟩ k.text,
        ⟨plainToken (.punct p) place' :: rest, place.stop, defaults, spreads⟩) := by
  have hbinary : binary self Precedence.comma.rank c ⟨plainToken (.keyword k escaped) place ::
        plainToken (.punct p) place' :: rest, stop, defaults, spreads⟩ = _ :=
    binary_keyword hreserved hawait hyield hlimit hp escaped
  have hends : At EndsOperand
      ⟨plainToken (.punct p) place' :: rest, place.stop, defaults, spreads⟩ := at_endsOperand hp
  have htail (m : Mark) (e : Expr) := assignmentTail_end (c := c) self m e returnTypes hends
  have hnext : isPunct .arrow (plainToken (.punct p) place') = false ∧
      isPunct .parenOpen (plainToken (.punct p) place') = false ∧
      isPunct .less (plainToken (.punct p) place') = false := by
    rcases hp with rfl | rfl <;> exact ⟨rfl, rfl, rfl⟩
  have hguess : guessArrow (plainToken (.keyword k escaped) place ::
      plainToken (.punct p) place' :: rest) = .no := guessArrow_keyword k escaped hnext
  have hahead : peekAhead 1 c ⟨plainToken (.keyword k escaped) place ::
        plainToken (.punct p) place' :: rest, stop, defaults, spreads⟩ =
      .ok (plainToken (.punct p) place', ⟨plainToken (.keyword k escaped) place ::
        plainToken (.punct p) place' :: rest, stop, defaults, spreads⟩) := rfl
  have hword : isName (plainToken (.punct p) place') = false ∧
      isAnyWord (plainToken (.punct p) place') = false ∧
      isLiteralStart (plainToken (.punct p) place') = false := ⟨rfl, rfl, rfl⟩
  obtain ⟨third, hthird⟩ := peekAhead_ok 2 c ⟨plainToken (.keyword k escaped) place ::
    plainToken (.punct p) place' :: rest, stop, defaults, spreads⟩
  simp [assignment, unmarkedAssignment, bind_apply, mark_cons, peek_cons, pure_apply, context,
    hyield, atOperandWord, hahead, hthird, hword, possibleArrow, peekAll, hguess,
    atAsyncArrow, atWord, hbinary, atPunct, hnext, htail]

end Keyword

theorem assignment_variable (hkind : namesVariable kind = true) (hyield : c.inYield = false)
    (hlimit : 0 < c.limit) (returnTypes : Bool) {p : Punct}
    (hp : p = .comma ∨ p = .bracketClose) :
    ∃ text, assignment self returnTypes c
        ⟨plainToken kind place :: plainToken (.punct p) place' :: rest, stop, defaults, spreads⟩ =
      .ok (.ident ⟨place.start, place.stop, []⟩ text,
        ⟨plainToken (.punct p) place' :: rest, place.stop, defaults, spreads⟩) := by
  cases kind with
  | name text =>
      have hends : At EndsOperand
          ⟨plainToken (.punct p) place' :: rest, place.stop, defaults, spreads⟩ := at_endsOperand hp
      refine ⟨text, assignment_of_leftHandSide ⟨_, _, _, rfl, .name _⟩ ?_ hends hlimit returnTypes⟩
      exact leftHandSide_of_primary (primary_name text) hends.operators.links hlimit
  | keyword k escaped =>
      simp only [namesVariable, Bool.and_eq_true, Bool.not_eq_true', bne_iff_ne] at hkind
      exact ⟨k.text, assignment_keyword hkind.1 hkind.2 hyield hlimit hp escaped returnTypes⟩
  | _ => cases hkind

/-! ## Array literals of names -/

theorem element_variable {n : Nat} (hkind : namesVariable kind = true) (hyield : c.inYield = false)
    (hlimit : 0 < c.limit) {p : Punct} (hp : p = .comma ∨ p = .bracketClose) :
    ∃ text, element (productions (n + 1)) c
        ⟨plainToken kind place :: plainToken (.punct p) place' :: rest, stop, defaults, spreads⟩ =
      .ok (.ident ⟨place.start, place.stop, []⟩ text,
        ⟨plainToken (.punct p) place' :: rest, place.stop, defaults, spreads⟩) := by
  obtain ⟨text, h⟩ : ∃ text, assignment (productions n) true (nested c)
      ⟨plainToken kind place :: plainToken (.punct p) place' :: rest, stop, defaults, spreads⟩ =
      .ok (.ident ⟨place.start, place.stop, []⟩ text,
        ⟨plainToken (.punct p) place' :: rest, place.stop, defaults, spreads⟩) :=
    assignment_variable (c := nested c) hkind hyield hlimit true hp
  have hpunct (q : Punct) : kind ≠ .punct q := by
    rintro rfl
    cases hkind
  refine ⟨text, ?_⟩
  have hself : productions (n + 1) (.assignment true) = assignment (productions n) true := rfl
  simp [element, spreadOrAssignment, bind_apply, mark_cons, atPunct_miss (hpunct _),
    eat_miss (hpunct _), nestedAssignment, within_apply, hself, h]

end Parser

end Syntax

open Syntax Literal

/-- The text is a name of a variable, as it stands in the source of a module. -/
def IsIdentifier (t : Text) : Prop :=
  ((wholeName? t).any fun name => namesVariable (wordKind name.text name.escaped)) = true

instance (t : Text) : Decidable (IsIdentifier t) :=
  inferInstanceAs (Decidable (_ = true))

namespace IsIdentifier

open Lexeme Parser

variable {name u : Text} {fuel : Nat} {trivia : Trivia}

/-- An identifier is read as a word, up to what follows it. -/
theorem tokensFrom_append (h : IsIdentifier name) (hu : EndsWord u) (hfuel : name.length ≤ fuel)
    (hquiet : trivia.IsQuiet) (pos : Nat) :
    ∃ kind, namesVariable kind = true ∧
      tokensFrom (fuel + 1) trivia [] pos (name ++ u) =
        plainToken kind ⟨pos, pos + name.length, trivia.gap⟩ ::
          tokensFrom fuel (.after kind) [] (pos + name.length) u := by
  obtain ⟨word, hword, hkind⟩ : ∃ word, wholeName? name = some word ∧
      namesVariable (wordKind word.text word.escaped) = true := by
    simpa [IsIdentifier, Option.any_eq_true] using h
  refine ⟨_, hkind, ?_⟩
  have hread := readKind_wholeName hword hu hfuel
  obtain ⟨c, rest, rfl, hc⟩ := exists_cons_of_wholeName? hword
  have hbegins : BeginsToken c := by
    rcases hc with hc | rfl
    · exact beginsToken_of_isIdStart hc
    · exact ⟨by decide, by decide, by decide, by decide⟩
  have hnesting : nestingAfter [] (wordKind word.text word.escaped) = [] := by
    unfold wordKind
    split <;> rfl
  rw [List.cons_append] at hread ⊢
  rw [tokensFrom_token hquiet hbegins hread, hnesting, ← List.cons_append, List.drop_left]

/-- A punctuator of one character is read alone. -/
theorem tokensFrom_mark {p : Punct} {c : Char} (h : markChar? p = some c) (hdot : p ≠ .dot)
    (hquiet : trivia.IsQuiet) (fuel pos : Nat) (u : Text) :
    tokensFrom (fuel + 1) trivia [] pos (c :: u) =
      plainToken (.punct p) ⟨pos, pos + 1, trivia.gap⟩ ::
        tokensFrom fuel (.after (.punct p)) [] (pos + 1) u := by
  obtain ⟨d, hd, hbegins, -⟩ := mark_text (p := p) (by simp [h])
  obtain rfl : d = c := Option.some.inj (hd.symm.trans h)
  have hnesting : nestingAfter [] (.punct p) = [] := by
    cases p <;> rfl
  rw [tokensFrom_token hquiet hbegins (readKind_mark h hdot u fuel), hnesting]
  rfl

theorem ne_nil (h : IsIdentifier name) : name ≠ [] := by
  rintro rfl
  exact absurd h (by decide)

/-- The elements are identifiers that stand in a text in this order. -/
def Elements (source : Text) (elements : List Expr) (names : List Text) : Prop :=
  elements.map (fun e => e.loc.text source) = names ∧ ∀ e ∈ elements, e.isHole = false

theorem elements_cons {source before after : Text} {elements : List Expr} {names : List Text}
    (hsource : source = before ++ (name ++ after)) (word : Text)
    (h : Elements source elements names) :
    Elements source
      (.ident ⟨before.length, before.length + name.length, []⟩ word :: elements)
      (name :: names) := by
  obtain ⟨htexts, hholes⟩ := h
  have hname : Text.slice source before.length (before.length + name.length) = name := by
    rw [hsource, Text.slice_append_middle]
  constructor
  · rw [List.map_cons, htexts]
    exact congrArg (· :: names) hname
  · exact List.forall_mem_cons.2 ⟨rfl, hholes⟩

section List

variable {c : Context} (hyield : c.inYield = false) (hlimit : 0 < c.limit) {n : Nat}

include hyield hlimit

/-- An identifier in front of a comma or a bracket is an element. -/
theorem element_of_identifier (h : IsIdentifier name) {p : Punct} {mark : Char}
    (hp : p = .comma ∨ p = .bracketClose) (hmark : markChar? p = some mark)
    (hfuel : name.length ≤ fuel + 1) (hquiet : trivia.IsQuiet) (pos stop : Nat) (u : Text) :
    let cur : Cursor := ⟨tokensFrom (fuel + 2) trivia [] pos (name ++ mark :: u), stop, [], []⟩
    atPunct .bracketClose c cur = .ok (false, cur) ∧
      ∃ word, element (productions (n + 1)) c cur =
        .ok (.ident ⟨pos, pos + name.length, []⟩ word,
          ⟨plainToken (.punct p) ⟨pos + name.length, pos + name.length + 1, .nothing⟩ ::
            tokensFrom fuel (.after (.punct p)) [] (pos + name.length + 1) u,
          pos + name.length, [], []⟩) := by
  intro cur
  obtain ⟨d, hd, -, hcontinue, hescape⟩ := mark_text (p := p) (by simp [hmark])
  obtain rfl : d = mark := Option.some.inj (hd.symm.trans hmark)
  have hends : EndsWord (d :: u) := by
    rintro c ⟨⟩
    exact ⟨hcontinue, hescape⟩
  have hdot : p ≠ .dot := by
    rcases hp with rfl | rfl <;> decide
  obtain ⟨kind, hkind, htokens⟩ := h.tokensFrom_append hends hfuel hquiet pos
  have hpunct : kind ≠ .punct .bracketClose := by
    rintro rfl
    cases hkind
  have hquiet' : (Trivia.after kind).IsQuiet := ⟨rfl, rfl, rfl⟩
  have hnext := tokensFrom_mark hd hdot hquiet' fuel (pos + name.length) u
  have hcur : cur = ⟨plainToken kind ⟨pos, pos + name.length, trivia.gap⟩ ::
      plainToken (.punct p) ⟨pos + name.length, pos + name.length + 1, .nothing⟩ ::
        tokensFrom fuel (.after (.punct p)) [] (pos + name.length + 1) u, stop, [], []⟩ := by
    simp only [cur, htokens, hnext]
    rfl
  rw [hcur]
  exact ⟨atPunct_miss hpunct, element_variable hkind hyield hlimit hp⟩

theorem items_of_identifiers {names : List Text} (hne : names ≠ [])
    (hnames : ∀ name ∈ names, IsIdentifier name) {before source : Text}
    (hsource : source = before ++ (Text.joinWith ", " names ++ [']']))
    (hfuel : (Text.joinWith ", " names).length + 2 ≤ fuel) (hquiet : trivia.IsQuiet) (stop : Nat) :
    ∃ elements place last,
      Elements source elements names ∧
      Items .bracketClose (element (productions (n + 1))) c
        ⟨tokensFrom fuel trivia [] before.length (Text.joinWith ", " names ++ [']']), stop, [], []⟩
        elements
        ⟨[plainToken (.punct .bracketClose) place, plainToken .stop last],
          place.start, [], []⟩ := by
  induction names generalizing before fuel trivia stop with
  | nil => exact absurd rfl hne
  | cons name rest ih =>
      have hname := hnames name (by simp)
      have hlength : 0 < name.length := List.length_pos_iff.2 hname.ne_nil
      cases rest with
      | nil =>
          simp only [Text.joinWith] at hsource hfuel ⊢
          obtain ⟨f, rfl⟩ : ∃ f, fuel = f + 1 + 2 := ⟨fuel - 3, by omega⟩
          have hread : name.length ≤ f + 1 + 1 := by omega
          obtain ⟨hstart, word, hword⟩ := hname.element_of_identifier hyield hlimit (.inr rfl) rfl
            hread hquiet before.length stop []
          have hend (pos : Nat) : tokensFrom (f + 1) (.after (.punct .bracketClose)) [] pos [] =
              [plainToken .stop ⟨pos, pos, .nothing⟩] := rfl
          rw [hend] at hword
          exact ⟨_, _, _, elements_cons hsource word ⟨rfl, by simp⟩, .last hstart hword⟩
      | cons next rest =>
          -- The blank behind the comma takes one unit of fuel and is gone with the next name.
          let tail := Text.joinWith ", " (next :: rest) ++ [']']
          have hjoin : Text.joinWith ", " (name :: next :: rest) ++ [']'] =
              name ++ (',' :: ' ' :: tail) := by
            simp [Text.joinWith, tail]
          have hlengths : (Text.joinWith ", " (name :: next :: rest)).length =
              name.length + 2 + (Text.joinWith ", " (next :: rest)).length := by
            simp [Text.joinWith]
            omega
          obtain ⟨f, rfl⟩ : ∃ f, fuel = f + 1 + 2 := ⟨fuel - 3, by omega⟩
          have hread : name.length ≤ f + 1 + 1 := by omega
          have hrest : (Text.joinWith ", " (next :: rest)).length + 2 ≤ f := by omega
          have hbefore : (before ++ (name ++ [',', ' '])).length =
              before.length + name.length + 2 := by
            simp [Nat.add_assoc]
          have hsource' : source = before ++ (name ++ [',', ' ']) ++ tail := by
            rw [hsource, hjoin]
            simp
          have hblank : (Trivia.after (.punct .comma)).passBlank.IsQuiet := ⟨rfl, rfl, rfl⟩
          obtain ⟨elements, place, last, helements, hitems⟩ :=
            ih (by simp) (fun n hn => hnames n (List.mem_cons_of_mem _ hn)) hsource' hrest hblank
              (before.length + name.length + 1)
          rw [hbefore] at hitems
          rw [hjoin] at hsource ⊢
          obtain ⟨hstart, word, hword⟩ := hname.element_of_identifier hyield hlimit (.inl rfl) rfl
            hread hquiet before.length stop (' ' :: tail)
          exact ⟨_, place, last, elements_cons hsource word helements, .more hstart hword hitems⟩

end List

theorem length_le_joinWith (names : List Text) :
    names.length ≤ (Text.joinWith ", " names).length + 1 := by
  induction names with
  | nil => simp
  | cons name rest ih =>
      cases rest with
      | nil => simp
      | cons next rest =>
          simp [Text.joinWith] at ih ⊢
          omega

end IsIdentifier

open Lexeme Parser IsIdentifier in
/-- An array literal that is put together from identifiers has these for its elements. -/
theorem isArrayOf_identifiers {names : List Text} (hnames : ∀ name ∈ names, IsIdentifier name) :
    IsArrayOf (arrayLiteral names) names := by
  by_cases hne : names = []
  · subst hne
    exact arrayElements?_eq_some_iff.1 (by decide +kernel)
  · let source := arrayLiteral names
    let body := Text.joinWith ", " names
    have hlength : source.length = body.length + 2 := by
      simp [source, body, arrayLiteral]
    have hnames' : names.length ≤ body.length + 1 := length_le_joinWith names
    have hlimit : (topContext source).limit = source.length + 1 := rfl
    have hpositive : 0 < (topContext source).limit := by omega
    obtain ⟨n, hn⟩ : ∃ n, fuelFor source = n + 1 + 2 := ⟨8 * source.length + 61, rfl⟩
    have hsource : source = ['['] ++ (body ++ [']']) := rfl
    have hquiet : (Trivia.after (.punct .bracketOpen)).IsQuiet := ⟨rfl, rfl, rfl⟩
    have hyield : (topContext source).inYield = false := rfl
    obtain ⟨elements, place, last, ⟨htexts, hholes⟩, hitems⟩ :=
      items_of_identifiers hyield hpositive (n := n) hne hnames hsource (Nat.le_refl _) hquiet 1
    have hmark : markChar? .bracketOpen = some '[' := rfl
    have htokens : tokens source = plainToken (.punct .bracketOpen) ⟨0, 1, .nothing⟩ ::
        tokensFrom (body.length + 2) (.after (.punct .bracketOpen)) [] 1 (body ++ [']']) := by
      rw [← hlength]
      exact tokensFrom_mark hmark (by decide) ⟨rfl, rfl, rfl⟩ source.length 0 (body ++ [']'])
    have hcount : elements.length < (topContext source).limit := by
      have hmap : (elements.map fun e => e.loc.text source).length = names.length := by
        rw [htexts]
      rw [List.length_map] at hmap
      omega
    have hprimary := primary_array ⟨0, 1, .nothing⟩ place 0 hitems hcount
    have hends : At EndsOperand ⟨[plainToken .stop last], place.stop, [], []⟩ :=
      ⟨_, _, _, rfl, .stop⟩
    have hleft := leftHandSide_of_primary hprimary hends.operators.links hpositive
    have hassignment := assignment_of_leftHandSide ⟨_, _, _, rfl, .array⟩ hleft hends hpositive true
    rw [List.length_singleton, ← htokens] at hassignment
    refine ⟨_, elements, parse_of_assignment hn hassignment, ?_⟩
    have hkept : (elements.filterMap fun e => if e.isHole then none else some (e.loc.text source)) =
        elements.map fun e => e.loc.text source := by
      rw [← List.filterMap_eq_map]
      exact List.filterMap_congr fun e he => by simp [hholes e he]
    exact (hkept.trans htexts).symm

end NgFile
