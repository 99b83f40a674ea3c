import NgFile.Syntax.Literal

/-!
# The lexical grammar of template literals

Template characters as the grammar of ECMAScript lists them, with their lookaheads,
and the code units that each denotes.  The grammar is a relation: it says what a
template may be read as, and nothing here says that a text has only one reading.
-/

namespace NgFile

namespace TemplateGrammar

open Syntax

def codeUnits (n : Nat) : List Nat :=
  if n < 0x10000 then [n]
  else [0xD800 + (n - 0x10000) / 0x400, 0xDC00 + (n - 0x10000) % 0x400]

/-- The string value that a text is, as UTF-16 code units. -/
def unitsOf (t : Text) : List Nat :=
  t.flatMap fun c => codeUnits c.toNat

def escapedCharacter (c : Char) : Char :=
  if c = 'b' then Char.ofNat 8
  else if c = 't' then Char.ofNat 9
  else if c = 'n' then Char.ofNat 10
  else if c = 'v' then Char.ofNat 11
  else if c = 'f' then Char.ofNat 12
  else if c = 'r' then Char.ofNat 13
  else c

inductive Piece
  /-- A character that stands for itself. -/
  | source (c : Char)
  /-- The end of a line, with the character that it denotes. -/
  | lineEnd (c : Char)
  /-- A backslash at the end of a line. -/
  | continuation
  | characterEscape (c : Char)
  | nulEscape
  /-- An escape for a single code unit, after `x` or `u`. -/
  | unitEscape (n : Nat)
  /-- An escape for a code point in braces. -/
  | pointEscape (n : Nat)
  /-- A backslash with what is no escape after it. -/
  | malformed (text : Text)

/-- The code units that a piece denotes; none if it is malformed. -/
def Piece.value : Piece → Option (List Nat)
  | source c | lineEnd c => some (codeUnits c.toNat)
  | continuation => some []
  | characterEscape c => some (codeUnits (escapedCharacter c).toNat)
  | nulEscape => some [0]
  | unitEscape n => some [n]
  | pointEscape n => some (codeUnits n)
  | malformed _ => none

def value (pieces : List Piece) : Option (List Nat) :=
  (pieces.mapM Piece.value).map List.flatten

def beginsHex (t : Text) : Prop :=
  ∃ c, t.head? = some c ∧ (Text.hexDigit? c).isSome

def beginsDigit (t : Text) : Prop :=
  ∃ c, t.head? = some c ∧ c.isDigit = true

/--
`LineEnd s c r`: the text `s` begins with the end of a line that denotes `c`, and goes on
with `r`.
-/
inductive LineEnd : Text → Char → Text → Prop
  | lineFeed (rest : Text) : LineEnd ('\n' :: rest) '\n' rest
  | carriageReturn (rest : Text) (h : rest.head? ≠ some '\n') : LineEnd ('\r' :: rest) '\n' rest
  | pair (rest : Text) : LineEnd ('\r' :: '\n' :: rest) '\n' rest
  | separator (c : Char) (rest : Text) (h : c.toNat = 0x2028 ∨ c.toNat = 0x2029) :
      LineEnd (c :: rest) c rest

/-- `Escape s p r`: what follows a backslash is the escape `p`, and goes on with `r`. -/
inductive Escape : Text → Piece → Text → Prop
  | character (c : Char) (rest : Text) (hdigit : c.isDigit = false) (hx : c ≠ 'x') (hu : c ≠ 'u')
      (hline : isLineEnd c = false) : Escape (c :: rest) (.characterEscape c) rest
  | nul (rest : Text) (h : ¬ beginsDigit rest) : Escape ('0' :: rest) .nulEscape rest
  | hex (digits rest : Text) (n : Nat) (hlength : digits.length = 2)
      (hvalue : Literal.hexValue? digits = some n) :
      Escape ('x' :: (digits ++ rest)) (.unitEscape n) rest
  | unicode (digits rest : Text) (n : Nat) (hlength : digits.length = 4)
      (hvalue : Literal.hexValue? digits = some n) :
      Escape ('u' :: (digits ++ rest)) (.unitEscape n) rest
  | codePoint (digits rest : Text) (n : Nat) (hvalue : Literal.hexValue? digits = some n)
      (hmax : n ≤ 0x10FFFF) :
      Escape ('u' :: '{' :: (digits ++ '}' :: rest)) (.pointEscape n) rest
  | zeroDigit (c : Char) (rest : Text) (h : c.isDigit = true) :
      Escape ('0' :: c :: rest) (.malformed ['0', c]) rest
  | digit (c : Char) (rest : Text) (hdigit : c.isDigit = true) (hzero : c ≠ '0') :
      Escape (c :: rest) (.malformed [c]) rest
  | shortHex (digits rest : Text) (hlength : digits.length < 2)
      (hdigits : ∀ d ∈ digits, (Text.hexDigit? d).isSome) (hrest : ¬ beginsHex rest) :
      Escape ('x' :: (digits ++ rest)) (.malformed ('x' :: digits)) rest
  | shortUnicode (digits rest : Text) (hlength : digits.length < 4)
      (hdigits : ∀ d ∈ digits, (Text.hexDigit? d).isSome) (hrest : ¬ beginsHex rest)
      (hbrace : digits = [] → rest.head? ≠ some '{') :
      Escape ('u' :: (digits ++ rest)) (.malformed ('u' :: digits)) rest
  | noCodePoint (digits rest : Text) (hdigits : ∀ d ∈ digits, (Text.hexDigit? d).isSome)
      (hrest : ¬ beginsHex rest)
      (h : rest.head? = some '}' → ∀ n, Literal.hexValue? digits = some n → 0x10FFFF < n) :
      Escape ('u' :: '{' :: (digits ++ rest)) (.malformed ('u' :: '{' :: digits)) rest

/-- `Character s p r`: the text `s` begins with the template character `p`, and goes on with `r`. -/
inductive Character : Text → Piece → Text → Prop
  | dollar (rest : Text) (h : rest.head? ≠ some '{') : Character ('$' :: rest) (.source '$') rest
  | source (c : Char) (rest : Text) (hgrave : c ≠ Text.graveAccent) (hbackslash : c ≠ '\\')
      (hdollar : c ≠ '$') (hline : isLineEnd c = false) : Character (c :: rest) (.source c) rest
  | lineEnd {s : Text} {c : Char} {rest : Text} (h : LineEnd s c rest) :
      Character s (.lineEnd c) rest
  | continuation {s : Text} {c : Char} {rest : Text} (h : LineEnd s c rest) :
      Character ('\\' :: s) .continuation rest
  | escape {s : Text} {p : Piece} {rest : Text} (h : Escape s p rest) :
      Character ('\\' :: s) p rest

inductive Characters : Text → List Piece → Text → Prop
  | nil (s : Text) : Characters s [] s
  | cons {s rest after : Text} {p : Piece} {ps : List Piece} (head : Character s p rest)
      (tail : Characters rest ps after) : Characters s (p :: ps) after

def NoSubstitution (s : Text) (ps : List Piece) (after : Text) : Prop :=
  ∃ body, s = Text.graveAccent :: body ∧ Characters body ps (Text.graveAccent :: after)

/-- The part of a template literal up to its first substitution, at the front of a text. -/
def Head (s : Text) (ps : List Piece) (after : Text) : Prop :=
  ∃ body, s = Text.graveAccent :: body ∧ Characters body ps ('$' :: '{' :: after)

end TemplateGrammar

end NgFile
