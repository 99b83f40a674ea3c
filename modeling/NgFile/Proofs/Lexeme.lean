import NgFile.Proofs.TemplateLiteral
import NgFile.Proofs.Words

/-!
# Lexemes

Generated text is put together from words, punctuators, literals, blanks and line
feeds.  Splitting such a text into tokens gives back what it was put together from,
as long as no two neighbours run into each other; strings and templates may hold
arbitrary text between their delimiters.
-/

namespace NgFile

open Syntax

/-- Trivia in which no comment has been passed. -/
def Syntax.Trivia.IsQuiet (trivia : Trivia) : Prop :=
  trivia.pending = [] ∧ trivia.pureMark = false ∧ trivia.effectFreeMark = false

/-- A building block of generated text. -/
inductive Lexeme
  | space
  | newline
  | keyword (word : Keyword)
  | name (word : Text)
  /-- A whole number in decimal. -/
  | numeral (digits : Text)
  | mark (p : Punct)
  /-- An operator with a blank behind it. -/
  | operator (p : Punct)
  /-- A string in single quotes that is written without escapes. -/
  | string (body : Text)
  /-- A text as a template literal. -/
  | template (t : Text)

namespace Lexeme

/-- The character of a punctuator that never is a part of a longer one here. -/
def markChar? : Punct → Option Char
  | .braceOpen => some '\x7b'
  | .braceClose => some '\x7d'
  | .parenOpen => some '('
  | .parenClose => some ')'
  | .bracketOpen => some '['
  | .bracketClose => some ']'
  | .semicolon => some ';'
  | .comma => some ','
  | .colon => some ':'
  | .at => some '@'
  | .dot => some '.'
  | _ => none

/-- The text of an operator that a blank keeps apart from what follows. -/
def operatorText? : Punct → Option Text
  | .equal => some "="
  | .arrow => some "=>"
  | .plus => some "+"
  | .minus => some "-"
  | .star => some "*"
  | .percent => some "%"
  | .equalEqual => some "=="
  | .bangEqual => some "!="
  | .equalEqualEqual => some "==="
  | .bangEqualEqual => some "!=="
  | .ampAmp => some "&&"
  | .barBar => some "||"
  | _ => none

def text : Lexeme → Text
  | space => [' ']
  | newline => ['\n']
  | keyword word => word.text
  | name word => word
  | numeral digits => digits
  | mark p => (markChar? p).toList
  | operator p => (operatorText? p).getD []
  | string body => '\'' :: (body ++ ['\''])
  | template t => Scaffold.templateLiteral t

def texts (ls : List Lexeme) : Text :=
  ls.flatMap text

/-- The kind of token that a lexeme is; none if it only separates tokens. -/
def kind? : Lexeme → Option TokenKind
  | space | newline => none
  | keyword word => some (.keyword word false)
  | name word => some (.name word)
  | numeral digits => some (.number (decimalValue digits))
  | mark p | operator p => some (.punct p)
  | string body => some (.string ⟨body, false⟩)
  | template t => some (.template true false (Literal.ofTemplateRun (Scaffold.escapeTemplate t)))

/-- Whether a text can be put between single quotes as it is. -/
def IsVerbatim (t : Text) : Prop :=
  ∀ c ∈ t, c ≠ '\'' ∧ c ≠ '\\' ∧ c ≠ '\n' ∧ c ≠ '\r'

instance (t : Text) : Decidable (IsVerbatim t) :=
  List.decidableBAll (fun c => c ≠ '\'' ∧ c ≠ '\\' ∧ c ≠ '\n' ∧ c ≠ '\r') t

def WellFormed : Lexeme → Prop
  | name word => isWordText word ∧ Keyword.ofText? word = none
  | numeral digits => isDecimal digits
  | mark p => (markChar? p).isSome
  | operator p => (operatorText? p).isSome
  | string body => IsVerbatim body
  | _ => True

def isWord : Lexeme → Bool
  | keyword _ | name _ => true
  | _ => false

def isBlank : Lexeme → Bool
  | space | newline => true
  | _ => false

/-- Whether a lexeme goes on with a word in front of it. -/
def isRun : Lexeme → Bool
  | keyword _ | name _ | numeral _ => true
  | _ => false

def isDot : Lexeme → Bool
  | mark .dot => true
  | _ => false

def endsRun (l : Lexeme) : Bool :=
  !l.isRun && !l.isDot

/--
Whether a lexeme may stand in front of others: words and numerals are kept apart, a dot has a
word after it, and an operator has a blank.
-/
def mayPrecede : Lexeme → List Lexeme → Bool
  | keyword _, next :: _ | name _, next :: _ => !next.isRun
  | numeral _, next :: _ => next.endsRun
  | mark .dot, next :: _ => next.isWord
  | mark .dot, [] => false
  | operator _, next :: _ => next.isBlank
  | operator _, [] => false
  | _, _ => true

def Separated : List Lexeme → Prop
  | [] => True
  | l :: rest => l.WellFormed ∧ l.mayPrecede rest = true ∧ Separated rest

instance : (l : Lexeme) → Decidable l.WellFormed
  | name word =>
      inferInstanceAs (Decidable (isWordText word = true ∧ Keyword.ofText? word = none))
  | numeral digits => inferInstanceAs (Decidable (isDecimal digits = true))
  | operator p => inferInstanceAs (Decidable ((operatorText? p).isSome = true))
  | mark p => inferInstanceAs (Decidable ((markChar? p).isSome = true))
  | string body => inferInstanceAs (Decidable (IsVerbatim body))
  | space | newline | keyword _ | template _ => inferInstanceAs (Decidable True)

instance decidableSeparated : (ls : List Lexeme) → Decidable (Separated ls)
  | [] => inferInstanceAs (Decidable True)
  | l :: rest =>
      let _ := decidableSeparated rest
      inferInstanceAs (Decidable (l.WellFormed ∧ l.mayPrecede rest = true ∧ Separated rest))

theorem mayPrecede_cons (l next : Lexeme) (rest rest' : List Lexeme) :
    l.mayPrecede (next :: rest) = l.mayPrecede (next :: rest') := by
  cases l with
  | mark p => cases p <;> rfl
  | _ => rfl

theorem mayPrecede_of_end {l : Lexeme} (h : l.mayPrecede [] = true) {more : List Lexeme}
    (hhead : ∀ next ∈ more.head?, next.endsRun = true) : l.mayPrecede more = true := by
  cases more with
  | nil => exact h
  | cons next more =>
      have hnext := hhead next rfl
      have hrun : next.isRun = false := by
        simp only [endsRun, Bool.and_eq_true, Bool.not_eq_true'] at hnext
        exact hnext.1
      cases l with
      | keyword k => simp [mayPrecede, hrun]
      | name word => simp [mayPrecede, hrun]
      | numeral digits => exact hnext
      | operator p => cases h
      | mark p =>
          cases p with
          | dot => cases h
          | _ => rfl
      | _ => rfl

/-- Lexemes that begin with no word, numeral or dot may follow others. -/
theorem separated_append {ls more : List Lexeme} (hls : Separated ls) (hmore : Separated more)
    (hhead : ∀ next ∈ more.head?, next.endsRun = true) : Separated (ls ++ more) := by
  induction ls with
  | nil => exact hmore
  | cons l rest ih =>
      obtain ⟨hl, hnext, hrest⟩ := hls
      refine ⟨hl, ?_, ih hrest⟩
      cases rest with
      | nil => exact mayPrecede_of_end hnext hhead
      | cons next rest => exact (mayPrecede_cons l next rest _).symm.trans hnext

structure Place where
  start : Nat
  stop : Nat
  gap : Gap

/-- A token without comments outside of template substitutions. -/
def plainToken (kind : TokenKind) (place : Place) : Token :=
  ⟨kind, place.start, place.stop, place.gap, [], false, false, []⟩

section PlainToken

variable (kind : TokenKind) (place : Place)

@[simp] theorem plainToken_kind : (plainToken kind place).kind = kind := by
  simp only [plainToken]
@[simp] theorem plainToken_start : (plainToken kind place).start = place.start := by
  simp only [plainToken]
@[simp] theorem plainToken_stop : (plainToken kind place).stop = place.stop := by
  simp only [plainToken]
@[simp] theorem plainToken_gap : (plainToken kind place).gap = place.gap := by
  simp only [plainToken]
@[simp] theorem plainToken_comments : (plainToken kind place).comments = [] := by
  simp only [plainToken]
@[simp] theorem plainToken_pureMark : (plainToken kind place).pureMark = false := by
  simp only [plainToken]
@[simp] theorem plainToken_effectFreeMark : (plainToken kind place).effectFreeMark = false := by
  simp only [plainToken]

end PlainToken

def gapAfter (gap : Gap) : Lexeme → Gap
  | space => if gap = .newline then .newline else .blank
  | _ => .newline

def tokensOf (gap : Gap) (pos : Nat) : List Lexeme → List Token
  | [] => []
  | l :: rest =>
      match l.kind? with
      | some kind =>
          plainToken kind ⟨pos, pos + l.text.length, gap⟩ ::
            tokensOf .nothing (pos + l.text.length) rest
      | none => tokensOf (gapAfter gap l) (pos + l.text.length) rest

def gapOf (gap : Gap) : List Lexeme → Gap
  | [] => gap
  | l :: rest => if l.kind?.isSome then gapOf .nothing rest else gapOf (gapAfter gap l) rest

def endOf (gap : Gap) (pos : Nat) (ls : List Lexeme) : Token :=
  plainToken .stop ⟨pos + (texts ls).length, pos + (texts ls).length, gapOf gap ls⟩

theorem texts_cons (l : Lexeme) (ls : List Lexeme) : texts (l :: ls) = l.text ++ texts ls := rfl

theorem texts_append (ls more : List Lexeme) : texts (ls ++ more) = texts ls ++ texts more :=
  List.flatMap_append

theorem length_texts_cons (l : Lexeme) (ls : List Lexeme) :
    (texts (l :: ls)).length = l.text.length + (texts ls).length := by
  rw [texts_cons, List.length_append]

theorem tokensOf_append (gap : Gap) (pos : Nat) (ls more : List Lexeme) :
    tokensOf gap pos (ls ++ more) =
      tokensOf gap pos ls ++ tokensOf (gapOf gap ls) (pos + (texts ls).length) more := by
  induction ls generalizing gap pos with
  | nil => rfl
  | cons l rest ih =>
      rw [length_texts_cons, ← Nat.add_assoc]
      cases hkind : l.kind? with
      | some kind => simp [tokensOf, gapOf, hkind, ih]
      | none => simp [tokensOf, gapOf, hkind, ih]

/-! ## Strings -/

theorem splitString_append {q : Char} {body t : Text}
    (hb : ∀ c ∈ body, c ≠ q ∧ c ≠ '\\' ∧ c ≠ '\n' ∧ c ≠ '\r') (hq : q ≠ '\\') :
    Literal.splitString q (body ++ q :: t) = some (body, t) := by
  induction body with
  | nil =>
    rw [List.nil_append, Literal.splitString.eq_def]
    split <;> simp_all
  | cons c body ih =>
      have hrest := ih fun d hd => hb d (List.mem_cons_of_mem _ hd)
      obtain ⟨h1, h2, h3, h4⟩ := hb c (by simp)
      rw [List.cons_append, Literal.splitString.eq_def]
      split <;> simp_all

theorem codePoints?_verbatim {body : Text} (hb : '\\' ∉ body) {fuel : Nat}
    (hfuel : body.length ≤ fuel) :
    Literal.codePoints? false fuel body = some (body.map Char.toNat) := by
  induction body generalizing fuel with
  | nil => cases fuel <;> rfl
  | cons c body ih =>
      obtain ⟨n, rfl⟩ : ∃ n, fuel = n + 1 := ⟨fuel - 1, by simp at hfuel; omega⟩
      simp only [List.mem_cons, not_or] at hb
      have hlength : body.length ≤ n := by simpa using hfuel
      have hrest := ih hb.2 hlength
      rw [Literal.codePoints?.eq_def]
      split
      · simp_all
      · simp_all
      · simp_all
      · simp_all

theorem isSurrogate_toNat (c : Char) :
    (Literal.isHighSurrogate c.toNat || Literal.isLowSurrogate c.toNat) = false := by
  have := c.valid
  simp only [Literal.isHighSurrogate, Literal.isLowSurrogate, Bool.or_eq_false_iff,
    Bool.and_eq_false_iff, decide_eq_false_iff_not]
  have h : c.toNat < 0xD800 ∨ 0xDFFF < c.toNat ∧ c.toNat < 0x110000 := this
  omega

theorem stringValue_toNat (t : Text) : Literal.stringValue (t.map Char.toNat) = ⟨t, false⟩ := by
  have hlone : ((t.map Char.toNat).any fun n =>
      Literal.isHighSurrogate n || Literal.isLowSurrogate n) = false := by
    simp only [List.any_map, List.any_eq_false]
    intro c _
    simpa using isSurrogate_toNat c
  have hback : (t.map Char.toNat).map Char.ofNat = t := by
    rw [List.map_map]
    exact (List.map_congr_left fun c _ => Char.ofNat_toNat c).trans (List.map_id t)
  simp only [Literal.stringValue, hlone, hback]
  rfl

theorem readKind_string {body t : Text} (hb : IsVerbatim body) (limit : Nat) :
    readKind limit ((string body).text ++ t) =
      (.string ⟨body, false⟩, (string body).text.length) := by
  have hsplit := splitString_append (q := '\'') (t := t) hb (by decide)
  have hvalue : Literal.ofStringBody? body = some ⟨body, false⟩ := by
    have hpoints := codePoints?_verbatim (fun h => (hb _ h).2.1 rfl) (Nat.le_refl body.length)
    simp [Literal.ofStringBody?, hpoints, stringValue_toNat]
  have hword : isIdStart '\'' = false := by decide
  have htext : (string body).text ++ t = '\'' :: (body ++ '\'' :: t) := by simp [text]
  rw [htext, readKind]
  simp [hword, hsplit, hvalue, text]

/-! ## Templates -/

theorem splitTemplate_cons {c : Char} {s : Text} (hgrave : c ≠ Text.graveAccent)
    (hbackslash : c ≠ '\\') (hbrace : c = '$' → s.head? ≠ some '{') :
    Literal.splitTemplate (c :: s) =
      (Literal.splitTemplate s).map fun (run, more, after) => (c :: run, more, after) := by
  rw [Literal.splitTemplate.eq_def]
  split
  · simp_all
  · simp_all
  · simp_all
  · simp_all

open TemplateGrammar in
theorem splitTemplate_escapeTemplate (t after : Text) :
    Literal.splitTemplate (Scaffold.escapeTemplate t ++ Text.graveAccent :: after) =
      some (Scaffold.escapeTemplate t, false, after) := by
  induction t using Scaffold.escapeTemplate.induct with
  | case1 =>
      simp [Scaffold.escapeTemplate, Literal.splitTemplate, Text.graveAccent]
  | case2 rest ih =>
      have hbrace := splitTemplate_cons (c := '{') (by decide) (by decide)
        (s := Scaffold.escapeTemplate rest ++ Text.graveAccent :: after)
        fun h => absurd h (by decide)
      simp [Scaffold.escapeTemplate, Literal.splitTemplate, hbrace, ih]
  | case3 c rest hpair hescape ih =>
      simp [Scaffold.escapeTemplate, hescape, Literal.splitTemplate, ih]
  | case4 c rest hpair hescape ih =>
      obtain ⟨hbackslash, hgrave⟩ := not_or.1 hescape
      have hplain := splitTemplate_cons hgrave hbackslash
        (s := Scaffold.escapeTemplate rest ++ Text.graveAccent :: after) fun hdollar =>
          head?_escapeTemplate_append (by decide) (by decide)
            (head?_ne_of_forall fun tail h => hpair tail hdollar h)
      simp [Scaffold.escapeTemplate, hescape, hplain, ih]

theorem codePoints?_escaped {c : Char} (h : c = '\\' ∨ c = Text.graveAccent ∨ c = '$')
    (rest : Text) (fuel : Nat) :
    Literal.codePoints? true (fuel + 1) ('\\' :: c :: rest) =
      (Literal.codePoints? true fuel rest).map (c.toNat :: ·) := by
  have hescape : Literal.escape? true (c :: rest) = some ([c.toNat], rest) := by
    rcases h with rfl | rfl | rfl <;> rfl
  rw [Literal.codePoints?, hescape]
  rfl

theorem codePoints?_plain {c : Char} (hbackslash : c ≠ '\\') (hreturn : c ≠ '\r') (rest : Text)
    (fuel : Nat) :
    Literal.codePoints? true (fuel + 1) (c :: rest) =
      (Literal.codePoints? true fuel rest).map (c.toNat :: ·) := by
  rw [Literal.codePoints?.eq_def]
  simp [hreturn]

theorem codePoints?_return {rest : Text} (h : rest.head? ≠ some '\n') (fuel : Nat) :
    Literal.codePoints? true (fuel + 1) ('\r' :: rest) =
      (Literal.codePoints? true fuel rest).map (10 :: ·) := by
  rw [Literal.codePoints?.eq_def]
  cases rest with
  | nil => rfl
  | cons d rest =>
      have hd : d ≠ '\n' := by simpa using h
      simp [hd]

open TemplateGrammar in
/-- Every escape in an escaped template is well-formed. -/
theorem isSome_codePoints?_escapeTemplate (t : Text) {fuel : Nat}
    (hfuel : (Scaffold.escapeTemplate t).length ≤ fuel) :
    (Literal.codePoints? true fuel (Scaffold.escapeTemplate t)).isSome = true := by
  induction t using escapedPieces.induct generalizing fuel with
  | case1 => cases fuel <;> rfl
  | case2 rest ih =>
      simp only [Scaffold.escapeTemplate, List.length_cons] at hfuel ⊢
      obtain ⟨n, rfl⟩ : ∃ n, fuel = n + 1 + 1 := ⟨fuel - 2, by omega⟩
      have hlength : (Scaffold.escapeTemplate rest).length ≤ n := by omega
      rw [codePoints?_escaped (.inr (.inr rfl)), codePoints?_plain (by decide) (by decide)]
      simpa using ih hlength
  | case3 rest ih =>
      have hpair : Scaffold.escapeTemplate ('\r' :: '\n' :: rest) =
          '\r' :: '\n' :: Scaffold.escapeTemplate rest := rfl
      rw [hpair] at hfuel ⊢
      simp only [List.length_cons] at hfuel
      obtain ⟨n, rfl⟩ : ∃ n, fuel = n + 1 := ⟨fuel - 1, by omega⟩
      have hlength : (Scaffold.escapeTemplate rest).length ≤ n := by omega
      simpa [Literal.codePoints?] using ih hlength
  | case4 c rest hdollar hreturn ih =>
      by_cases hescape : c = '\\' ∨ c = Text.graveAccent
      · have hcons : Scaffold.escapeTemplate (c :: rest) =
            '\\' :: c :: Scaffold.escapeTemplate rest := by
          simp [Scaffold.escapeTemplate, hescape]
        rw [hcons] at hfuel ⊢
        simp only [List.length_cons] at hfuel
        obtain ⟨n, rfl⟩ : ∃ n, fuel = n + 1 := ⟨fuel - 1, by omega⟩
        have hlength : (Scaffold.escapeTemplate rest).length ≤ n := by omega
        rw [codePoints?_escaped (hescape.imp_right .inl)]
        simpa using ih hlength
      · have hcons : Scaffold.escapeTemplate (c :: rest) = c :: Scaffold.escapeTemplate rest := by
          simp [Scaffold.escapeTemplate, hescape]
        rw [hcons] at hfuel ⊢
        simp only [List.length_cons] at hfuel
        obtain ⟨n, rfl⟩ : ∃ n, fuel = n + 1 := ⟨fuel - 1, by omega⟩
        have hlength : (Scaffold.escapeTemplate rest).length ≤ n := by omega
        by_cases hc : c = '\r'
        · -- No line feed comes to stand behind a lone carriage return by the escapes.
          subst hc
          have hhead : (Scaffold.escapeTemplate rest ++ [Text.graveAccent]).head? ≠ some '\n' :=
            head?_escapeTemplate_append (by decide) (by decide)
              (head?_ne_of_forall fun tail h => hreturn tail rfl h)
          have hfeed : (Scaffold.escapeTemplate rest).head? ≠ some '\n' := by
            intro h
            exact hhead (by rw [List.head?_append, h]; rfl)
          rw [codePoints?_return hfeed]
          simpa using ih hlength
        · rw [codePoints?_plain (fun h => hescape (.inl h)) hc]
          simpa using ih hlength

theorem isSome_cooked_escapeTemplate (t : Text) :
    (Literal.ofTemplateRun (Scaffold.escapeTemplate t)).cooked.isSome = true := by
  have hpoints := isSome_codePoints?_escapeTemplate t (Nat.le_refl _)
  simpa [Literal.ofTemplateRun] using hpoints

theorem readKind_template (s t : Text) (limit : Nat) :
    readKind limit ((template s).text ++ t) =
      (.template true false (Literal.ofTemplateRun (Scaffold.escapeTemplate s)),
        (template s).text.length) := by
  have hsplit := splitTemplate_escapeTemplate s t
  have hword : (isIdStart Text.graveAccent || Text.graveAccent == '\\') = false := by decide
  have hquote : (Text.graveAccent == '\x22' || Text.graveAccent == '\x27') = false := by decide
  have htext : (template s).text ++ t =
      Text.graveAccent :: (Scaffold.escapeTemplate s ++ Text.graveAccent :: t) := by
    simp [text, Scaffold.templateLiteral]
  rw [htext, readKind]
  simp [hword, hquote, hsplit, text, Scaffold.templateLiteral]

/-! ## Punctuators -/

theorem readKind_mark {p : Punct} {c : Char} (h : markChar? p = some c) (hdot : p ≠ .dot)
    (t : Text) (limit : Nat) : readKind limit (c :: t) = (.punct p, 1) := by
  cases p with
  | dot => exact absurd rfl hdot
  | braceOpen | braceClose | parenOpen | parenClose | bracketOpen | bracketClose
  | semicolon | comma | colon | «at» =>
      cases h
      rfl
  | _ => cases h

theorem readKind_dot {c : Char} (hc : isIdStart c = true) (t : Text) (limit : Nat) :
    readKind limit ('.' :: c :: t) = (.punct .dot, 1) := by
  have hword : isIdStart '.' = false := by decide
  have hdot : c ≠ '.' := by
    rintro rfl
    cases hc
  have hdigit : c.isDigit = false := by
    rw [← Bool.not_eq_true]
    intro h
    rw [isIdStart_eq_false_of_isDigit h] at hc
    cases hc
  simp [readKind, Punct.ofText?, hword, hdigit, hdot, Text.graveAccent]

theorem readKind_operator {p : Punct} {s : Text} (h : operatorText? p = some s) {blank : Char}
    (hblank : blank = ' ' ∨ blank = '\n') (t : Text) (limit : Nat) :
    readKind limit (s ++ blank :: t) = (.punct p, s.length) := by
  cases p with
  | equal | arrow | plus | minus | star | percent | equalEqual | bangEqual | equalEqualEqual
  | bangEqualEqual | ampAmp | barBar =>
      cases h
      rcases hblank with rfl | rfl <;> rfl
  | _ => cases h

/-! ## One token at a time -/

theorem mark_text {p : Punct} (h : (markChar? p).isSome) :
    ∃ c, markChar? p = some c ∧ BeginsToken c ∧ isIdContinue c = false ∧ c ≠ '\\' := by
  cases p with
  | braceOpen | braceClose | parenOpen | parenClose | bracketOpen | bracketClose
  | semicolon | comma | colon | «at» | dot =>
      exact ⟨_, rfl, ⟨by decide, by decide, by decide, by decide⟩, by decide, by decide⟩
  | _ => cases h

theorem operator_text {p : Punct} (h : (operatorText? p).isSome) :
    ∃ c s, operatorText? p = some (c :: s) ∧ BeginsToken c ∧ isIdContinue c = false ∧
      c ≠ '\\' := by
  cases p with
  | equal | arrow | plus | minus | star | percent | equalEqual | bangEqual | equalEqualEqual
  | bangEqualEqual | ampAmp | barBar =>
      exact ⟨_, _, rfl, ⟨by decide, by decide, by decide, by decide⟩, by decide, by decide⟩
  | _ => cases h

theorem word_text {l : Lexeme} (hl : l.WellFormed) (hw : l.isWord = true) :
    isWordText l.text = true ∧ l.kind? = some (wordKind l.text false) := by
  cases l with
  | keyword k =>
      refine ⟨isWordText_text k, ?_⟩
      simp [kind?, text, wordKind, ofText?_text]
  | name word =>
      obtain ⟨hword, hkeyword⟩ := hl
      refine ⟨hword, ?_⟩
      simp [kind?, text, wordKind, hkeyword]
  | _ => cases hw

/-- What follows a word and goes on with none ends the word. -/
theorem endsWord_texts {ls : List Lexeme} (hls : Separated ls)
    (hhead : ∀ l ∈ ls.head?, l.isRun = false) : EndsWord (texts ls) := by
  intro c hc
  cases ls with
  | nil => simp [texts] at hc
  | cons l rest =>
      have hrun := hhead l rfl
      have hl := hls.1
      rw [texts_cons] at hc
      cases l with
      | space | newline | string body | template t =>
          obtain rfl : _ = c := Option.some.inj hc
          exact ⟨by decide, by decide⟩
      | mark p =>
          obtain ⟨d, hd, -, hcontinue, hne⟩ := mark_text hl
          simp only [text, hd, Option.toList_some] at hc
          obtain rfl : d = c := Option.some.inj hc
          exact ⟨hcontinue, hne⟩
      | operator p =>
          obtain ⟨d, s, hd, -, hcontinue, hne⟩ := operator_text hl
          simp only [text, hd, Option.getD_some] at hc
          obtain rfl : d = c := Option.some.inj hc
          exact ⟨hcontinue, hne⟩
      | keyword k => cases hrun
      | name word => cases hrun
      | numeral digits => cases hrun

theorem exists_beginsToken {l : Lexeme} {kind : TokenKind} (hl : l.WellFormed)
    (hkind : l.kind? = some kind) : ∃ c s, l.text = c :: s ∧ BeginsToken c := by
  by_cases hword : l.isWord = true
  · obtain ⟨c, s, hcs, hstart⟩ := exists_cons_of_isWordText (word_text hl hword).1
    exact ⟨c, s, hcs, beginsToken_of_isIdStart hstart⟩
  · cases l with
    | space | newline => cases hkind
    | keyword k => exact absurd rfl hword
    | name word => exact absurd rfl hword
    | numeral digits =>
        obtain ⟨c, s, rfl, hdigit⟩ := exists_cons_of_isDecimal hl
        exact ⟨c, s, rfl, beginsToken_of_isDigit hdigit⟩
    | mark p =>
        obtain ⟨c, hc, hbegins, -⟩ := mark_text hl
        exact ⟨c, [], by simp [text, hc], hbegins⟩
    | operator p =>
        obtain ⟨c, s, hcs, hbegins, -⟩ := operator_text hl
        exact ⟨c, s, by simp [text, hcs], hbegins⟩
    | string body => exact ⟨_, _, rfl, by decide, by decide, by decide, by decide⟩
    | template t => exact ⟨_, _, rfl, by decide, by decide, by decide, by decide⟩

/-- What follows a numeral and goes on with none ends the numeral. -/
theorem endsNumeral_texts {ls : List Lexeme} (hls : Separated ls)
    (hhead : ∀ l ∈ ls.head?, l.endsRun = true) : EndsNumeral (texts ls) := by
  have hends : ∀ l ∈ ls.head?, l.isRun = false ∧ l.isDot = false := by
    intro l hl
    simpa [endsRun] using hhead l hl
  refine ⟨endsWord_texts hls fun l hl => (hends l hl).1, ?_⟩
  intro c hc
  cases ls with
  | nil => simp [texts] at hc
  | cons l rest =>
      obtain ⟨hrun, hdot⟩ := hends l rfl
      have hl := hls.1
      rw [texts_cons] at hc
      cases l with
      | space | newline | string body | template t =>
          obtain rfl : _ = c := Option.some.inj hc
          decide
      | mark p =>
          cases p with
          | dot => cases hdot
          | braceOpen | braceClose | parenOpen | parenClose | bracketOpen | bracketClose
          | semicolon | comma | colon | «at» =>
              obtain rfl : _ = c := Option.some.inj hc
              decide
          | _ => cases hl
      | operator p =>
          cases p with
          | equal | arrow | plus | minus | star | percent | equalEqual | bangEqual
          | equalEqualEqual | bangEqualEqual | ampAmp | barBar =>
              obtain rfl : _ = c := Option.some.inj hc
              decide
          | _ => cases hl
      | keyword k => cases hrun
      | name word => cases hrun
      | numeral digits => cases hrun

theorem readToken_word {l : Lexeme} {rest : List Lexeme} {kind : TokenKind} (hl : l.WellFormed)
    (hword : l.isWord = true) (hnext : l.mayPrecede rest = true) (hrest : Separated rest)
    (hkind : l.kind? = some kind) {limit : Nat} (hlimit : l.text.length ≤ limit) :
    readKind limit (l.text ++ texts rest) = (kind, l.text.length) := by
  obtain ⟨hwordText, hk⟩ := word_text hl hword
  have hends : EndsWord (texts rest) := by
    refine endsWord_texts hrest fun next hhead => ?_
    cases rest with
    | nil => cases hhead
    | cons d ds =>
        obtain rfl : d = next := Option.some.inj hhead
        cases l with
        | keyword k => simpa [mayPrecede] using hnext
        | name word => simpa [mayPrecede] using hnext
        | _ => cases hword
  rw [readKind_word hwordText hends hlimit, Option.some.inj (hk.symm.trans hkind)]

theorem readToken_mark {p : Punct} {rest : List Lexeme} (hl : (mark p).WellFormed)
    (hnext : (mark p).mayPrecede rest = true) (hrest : Separated rest) (limit : Nat) :
    readKind limit ((mark p).text ++ texts rest) = (.punct p, (mark p).text.length) := by
  obtain ⟨c, hc, -⟩ := mark_text hl
  by_cases hdot : p = .dot
  · subst hdot
    cases hc
    cases rest with
    | nil => cases hnext
    | cons next more =>
        have hword := (word_text hrest.1 (by simpa [mayPrecede] using hnext)).1
        obtain ⟨d, s, hds, hstart⟩ := exists_cons_of_isWordText hword
        rw [texts_cons, hds]
        exact readKind_dot hstart _ _
  · simpa [text, hc] using readKind_mark hc hdot (texts rest) limit

theorem readToken_operator {p : Punct} {rest : List Lexeme} (hl : (operator p).WellFormed)
    (hnext : (operator p).mayPrecede rest = true) (limit : Nat) :
    readKind limit ((operator p).text ++ texts rest) =
      (.punct p, (operator p).text.length) := by
  obtain ⟨s, hs⟩ := Option.isSome_iff_exists.1 hl
  have htext : (operator p).text = s := by simp [text, hs]
  cases rest with
  | nil => cases hnext
  | cons next more =>
      rw [htext]
      cases next with
      | space => exact readKind_operator hs (.inl rfl) _ _
      | newline => exact readKind_operator hs (.inr rfl) _ _
      | _ => cases hnext

/-- A lexeme is read as the token that it is. -/
theorem readToken_lexeme {l : Lexeme} {rest : List Lexeme} {kind : TokenKind} (hl : l.WellFormed)
    (hnext : l.mayPrecede rest = true) (hrest : Separated rest) (hkind : l.kind? = some kind)
    {limit : Nat} (hlimit : l.text.length ≤ limit) :
    readKind limit (l.text ++ texts rest) = (kind, l.text.length) := by
  by_cases hword : l.isWord = true
  · exact readToken_word hl hword hnext hrest hkind hlimit
  · cases l with
    | space | newline => cases hkind
    | keyword k => exact absurd rfl hword
    | name word => exact absurd rfl hword
    | numeral digits =>
        cases hkind
        refine readKind_numeral hl (endsNumeral_texts hrest fun next hhead => ?_) limit
        cases rest with
        | nil => cases hhead
        | cons d ds =>
            obtain rfl : d = next := Option.some.inj hhead
            exact hnext
    | mark p =>
        cases hkind
        exact readToken_mark hl hnext hrest limit
    | operator p =>
        cases hkind
        exact readToken_operator hl hnext limit
    | string body =>
        cases hkind
        exact readKind_string hl limit
    | template t =>
        cases hkind
        exact readKind_template t _ limit

theorem tokensFrom_token {fuel : Nat} {trivia : Trivia} (hquiet : trivia.IsQuiet) {pos : Nat}
    {c : Char} {t : Text} (hc : BeginsToken c) {kind : TokenKind} {length : Nat}
    (h : readKind fuel (c :: t) = (kind, length)) :
    tokensFrom (fuel + 1) trivia [] pos (c :: t) =
      plainToken kind ⟨pos, pos + length, trivia.gap⟩ ::
        tokensFrom fuel (.after kind) (nestingAfter [] kind) (pos + length)
          ((c :: t).drop length) := by
  obtain ⟨hslash, -, hline, hspace⟩ := hc
  obtain ⟨hpending, hpure, heffect⟩ := hquiet
  simp [tokensFrom, hslash, hline, hspace, readToken, h, plainToken, hpending, hpure, heffect]

theorem length_separator {l : Lexeme} (hkind : l.kind? = none) : l.text.length = 1 := by
  cases l with
  | space | newline => rfl
  | _ => cases hkind

/-- A lexeme that only separates is passed over, and recorded for the next token. -/
theorem tokensFrom_separator {l : Lexeme} (hkind : l.kind? = none) {trivia : Trivia}
    (hquiet : trivia.IsQuiet) (fuel pos : Nat) (rest : List Lexeme) :
    ∃ trivia' : Trivia, trivia'.IsQuiet ∧ trivia'.gap = gapAfter trivia.gap l ∧
      tokensFrom (fuel + 1) trivia [] pos (texts (l :: rest)) =
        tokensFrom fuel trivia' [] (pos + l.text.length) (texts rest) := by
  obtain ⟨hpending, hpure, heffect⟩ := hquiet
  cases l with
  | space => exact ⟨trivia.passBlank, ⟨hpending, hpure, heffect⟩, rfl, rfl⟩
  | newline =>
      have hpending' : trivia.passNewline.pending = [] := by
        simp [Trivia.passNewline, hpending]
      exact ⟨trivia.passNewline, ⟨hpending', hpure, heffect⟩, rfl, rfl⟩
  | _ => cases hkind

theorem nestingAfter_kind {l : Lexeme} {kind : TokenKind} (h : l.kind? = some kind) :
    nestingAfter [] kind = [] := by
  cases l with
  | mark p | operator p => cases h; cases p <;> rfl
  | space | newline => cases h
  | _ => cases h; rfl

/-! ## Whole texts -/

theorem tokensFrom_texts {ls : List Lexeme} (hls : Separated ls) {fuel : Nat}
    (hfuel : (texts ls).length < fuel) {trivia : Trivia} (hquiet : trivia.IsQuiet) (pos : Nat) :
    tokensFrom fuel trivia [] pos (texts ls) =
      tokensOf trivia.gap pos ls ++ [endOf trivia.gap pos ls] := by
  -- The trivia in front is any that is quiet, since only its gap shows in the next token.
  induction ls generalizing fuel trivia pos with
  | nil =>
      obtain ⟨hpending, hpure, heffect⟩ := hquiet
      obtain ⟨n, rfl⟩ := Nat.exists_eq_add_of_lt hfuel
      simp [texts, tokensFrom, tokensOf, endOf, gapOf, plainToken, hpending, hpure, heffect]
  | cons l rest ih =>
      obtain ⟨hl, hnext, hrest⟩ := hls
      obtain ⟨n, rfl⟩ : ∃ n, fuel = n + 1 := ⟨fuel - 1, by omega⟩
      rw [length_texts_cons] at hfuel
      cases hkind : l.kind? with
      | some kind =>
          obtain ⟨c, s, hcs, hbegins⟩ := exists_beginsToken hl hkind
          have hlimit : l.text.length ≤ n := by omega
          have hread := readToken_lexeme hl hnext hrest hkind hlimit
          have hlength : 0 < l.text.length := by simp [hcs]
          have hend : endOf trivia.gap pos (l :: rest) =
              endOf .nothing (pos + l.text.length) rest := by
            simp [endOf, gapOf, hkind, length_texts_cons, Nat.add_assoc]
          rw [texts_cons, hend]
          rw [hcs, List.cons_append] at hread ⊢
          rw [tokensFrom_token hquiet hbegins hread, nestingAfter_kind hkind, ← List.cons_append,
            ← hcs, List.drop_left, ih hrest (by omega) ⟨rfl, rfl, rfl⟩]
          simp only [tokensOf, hkind, List.cons_append]
          rfl
      | none =>
          have hend : endOf trivia.gap pos (l :: rest) =
              endOf (gapAfter trivia.gap l) (pos + l.text.length) rest := by
            simp [endOf, gapOf, hkind, length_texts_cons, Nat.add_assoc]
          rw [hend]
          obtain ⟨trivia', hquiet', hgap, hstep⟩ := tokensFrom_separator hkind hquiet n pos rest
          have hlength := length_separator hkind
          rw [hstep, ih hrest (by omega) hquiet', hgap]
          simp only [tokensOf, hkind]

theorem skipHashbang_texts {ls : List Lexeme} (hls : Separated ls) :
    skipHashbang (texts ls) = (0, texts ls) := by
  cases ls with
  | nil => rfl
  | cons l rest =>
      cases hkind : l.kind? with
      | some kind =>
          obtain ⟨c, s, hcs, -, hhash, -⟩ := exists_beginsToken hls.1 hkind
          rw [texts_cons, hcs, List.cons_append]
          simp [skipHashbang, hhash]
      | none =>
          cases l with
          | space => rfl
          | newline => rfl
          | _ => cases hkind

/-- The tokens of a text put together from lexemes are the lexemes. -/
theorem tokens_texts {ls : List Lexeme} (hls : Separated ls) :
    tokens (texts ls) = tokensOf .nothing 0 ls ++ [endOf .nothing 0 ls] := by
  rw [tokens, skipHashbang_texts hls]
  exact tokensFrom_texts hls (Nat.lt_succ_self _) ⟨rfl, rfl, rfl⟩ 0

end Lexeme

end NgFile
