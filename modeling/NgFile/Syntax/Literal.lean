import NgFile.Syntax.Token

/-!
# Literals

Readers for the bodies of literals: where a string, a template run or a regular
expression ends, what the escapes in a text denote, and the value of a numeral.
Every reader works on the list of characters that follows the opening delimiter.
-/

namespace NgFile

namespace Syntax

def isLineEnd (c : Char) : Bool :=
  c == '\n' || c == '\r' || c.toNat == 0x2028 || c.toNat == 0x2029

/--
White space that does not end a line: that of the language, the next-line control and the
space of no width.
-/
def isSpace (c : Char) : Bool :=
  let n := c.toNat
  n == 0x20 || n == 9 || n == 0xB || n == 0xC || n == 0x85 || n == 0xA0 || n == 0xFEFF ||
    n == 0x1680 || (0x2000 ≤ n && n ≤ 0x200B) || n == 0x202F || n == 0x205F || n == 0x3000

namespace Literal

/--
Split after the closing delimiter of a string: its raw body and what follows.
A line feed or carriage return in the body must follow a backslash.
-/
def splitString (quote : Char) : Text → Option (Text × Text)
  | [] => none
  | '\\' :: '\r' :: '\n' :: rest =>
      (splitString quote rest).map fun (body, after) => ('\\' :: '\r' :: '\n' :: body, after)
  | '\\' :: c :: rest =>
      (splitString quote rest).map fun (body, after) => ('\\' :: c :: body, after)
  | c :: rest =>
      if c = quote then some ([], rest)
      else if c = '\n' ∨ c = '\r' ∨ c = '\\' then none
      else (splitString quote rest).map fun (body, after) => (c :: body, after)

/--
Split after the end of a run of template characters: the raw run, whether a
substitution follows, and the text after the grave accent or opening brace.
-/
def splitTemplate : Text → Option (Text × Bool × Text)
  | [] => none
  | '\\' :: c :: rest =>
      (splitTemplate rest).map fun (run, more, after) => ('\\' :: c :: run, more, after)
  | '$' :: '{' :: rest => some ([], true, rest)
  | c :: rest =>
      if c = Text.graveAccent then some ([], false, rest)
      else (splitTemplate rest).map fun (run, more, after) => (c :: run, more, after)

/-- Split after the slash that ends a regular expression; slashes in a class do not. -/
def splitRegex (inClass : Bool) : Text → Option (Text × Text)
  | [] => none
  | '\\' :: c :: rest =>
      if isLineEnd c then none
      else (splitRegex inClass rest).map fun (body, after) => ('\\' :: c :: body, after)
  | c :: rest =>
      if isLineEnd c then none
      else if c = '/' ∧ inClass = false then some ([], rest)
      else
        let inClass' := if c = '[' then true else if c = ']' then false else inClass
        (splitRegex inClass' rest).map fun (body, after) => (c :: body, after)

/-- The value of hexadecimal digits; none for any other character or for no digit. -/
def hexValue? (digits : Text) : Option Nat :=
  if digits.isEmpty then none
  else
    digits.foldl (fun value c =>
      value.bind fun n => (Text.hexDigit? c).map fun d => 16 * n + d) (some 0)

/-- The code point of a Unicode escape after its `\u`, with what follows. -/
def unicodeEscape? (t : Text) : Option (Nat × Text) :=
  match t with
  | '{' :: rest =>
      let digits := rest.takeWhile (· ≠ '}')
      match rest.drop digits.length with
      | '}' :: after =>
          match hexValue? digits with
          | some n => if n ≤ 0x10FFFF then some (n, after) else none
          | none => none
      | _ => none
  | a :: b :: c :: d :: after =>
      match hexValue? [a, b, c, d] with
      | some n => some (n, after)
      | none => none
  | _ => none

def isHighSurrogate (n : Nat) : Bool := 0xD800 ≤ n && n < 0xDC00

def isLowSurrogate (n : Nat) : Bool := 0xDC00 ≤ n && n < 0xE000

/--
The code point of two escapes for the halves of a surrogate pair, given the text after the
first `\u`, with what follows.  Both halves are written with four digits.
-/
def pairEscape? (t : Text) : Option (Nat × Text) :=
  match t with
  | a :: b :: c :: d :: '\\' :: 'u' :: e :: f :: g :: h :: after =>
      match hexValue? [a, b, c, d], hexValue? [e, f, g, h] with
      | some high, some low =>
          if isHighSurrogate high && isLowSurrogate low then
            some (0x10000 + (high - 0xD800) * 0x400 + (low - 0xDC00), after)
          else none
      | _, _ => none
  | _ => none

def isOctal (c : Char) : Bool :=
  '0' ≤ c && c ≤ '7'

def octalEscape (first : Char) (rest : Text) : Nat × Text :=
  let limit := if first ≤ '3' then 2 else 1
  let more := (rest.take limit).takeWhile isOctal
  ((first :: more).foldl (fun n c => 8 * n + (c.toNat - 48)) 0, rest.drop more.length)

/--
The code points that a single escape denotes, given the text after its
backslash, with what follows.  Octal escapes are for strings only.
-/
def escape? (inTemplate : Bool) (t : Text) : Option (List Nat × Text) :=
  match t with
  | [] => none
  | 'n' :: rest => some ([10], rest)
  | 't' :: rest => some ([9], rest)
  | 'r' :: rest => some ([13], rest)
  | 'b' :: rest => some ([8], rest)
  | 'v' :: rest => some ([11], rest)
  | 'f' :: rest => some ([12], rest)
  | '\r' :: '\n' :: rest => some ([], rest)
  | 'x' :: a :: b :: rest => (hexValue? [a, b]).map fun n => ([n], rest)
  | 'x' :: _ => none
  | 'u' :: rest =>
      ((pairEscape? rest).orElse fun _ => unicodeEscape? rest).map fun (n, after) => ([n], after)
  | c :: rest =>
      if isLineEnd c then some ([], rest)
      else if c.isDigit then
        if inTemplate then
          if c = '0' ∧ (rest.head?.any Char.isDigit) = false then some ([0], rest) else none
        else if isOctal c then
          let (n, after) := octalEscape c rest
          some ([n], after)
        else some ([c.toNat], rest)
      else some ([c.toNat], rest)

/--
The code points that a raw body denotes.  In a template a carriage return, alone
or before a line feed, denotes a line feed.
-/
def codePoints? (inTemplate : Bool) : Nat → Text → Option (List Nat)
  | _, [] => some []
  | 0, _ :: _ => none
  | fuel + 1, '\\' :: rest =>
      match escape? inTemplate rest with
      | some (points, after) => (codePoints? inTemplate fuel after).map (points ++ ·)
      | none => none
  | fuel + 1, c :: rest =>
      if c = '\r' ∧ inTemplate = true then
        match rest with
        | '\n' :: after => (codePoints? inTemplate fuel after).map (10 :: ·)
        | _ => (codePoints? inTemplate fuel rest).map (10 :: ·)
      else (codePoints? inTemplate fuel rest).map (c.toNat :: ·)

def fourHex (n : Nat) : Text :=
  let digits := Text.hexOfNat n
  List.replicate (4 - digits.length) '0' ++ digits

def stringValue (points : List Nat) : StringValue :=
  let isLone (n : Nat) : Bool := isHighSurrogate n || isLowSurrogate n
  if points.any isLone then
    { text := points.flatMap fun n =>
        if isLone n || n == 0xFFFD then Char.ofNat 0xFFFD :: fourHex n else [Char.ofNat n]
      hasLoneSurrogate := true }
  else { text := points.map Char.ofNat, hasLoneSurrogate := false }

/-- The value of a string literal with a raw body; none if an escape is malformed. -/
def ofStringBody? (body : Text) : Option StringValue :=
  (codePoints? false body.length body).map stringValue

def withLineFeeds : Text → Text
  | [] => []
  | '\r' :: '\n' :: rest => '\n' :: withLineFeeds rest
  | '\r' :: rest => '\n' :: withLineFeeds rest
  | c :: rest => c :: withLineFeeds rest

def ofTemplateRun (run : Text) : TemplateChunk :=
  { raw := withLineFeeds run
    cooked := (codePoints? true run.length run).map fun points => (stringValue points).text }

def regexFlags : Text := ['d', 'g', 'i', 'm', 's', 'u', 'v', 'y']

def areRegexFlags (flags : Text) : Bool :=
  (flags.all regexFlags.contains) && decide flags.Nodup &&
    !(flags.contains 'u' && flags.contains 'v')

def orderedFlags (flags : Text) : Text :=
  regexFlags.filter flags.contains

def digitRun (isDigit : Char → Bool) (t : Text) : Text :=
  t.takeWhile fun c => isDigit c || c == '_'

/-- The digits of a run; none if a low line is not between two digits. -/
def runDigits? (run : Text) : Option Text :=
  if (Text.pieces '_' run).any List.isEmpty && !run.isEmpty then none
  else some (run.filter (· ≠ '_'))

def valueInBase (base : Nat) (digits : Text) : Nat :=
  digits.foldl (fun n c => base * n + (Text.hexDigit? c).getD 0) 0

/-- What a numeral at the front of a text is, and how many characters it has. -/
abbrev Reading := Option (TokenKind × Nat)

/-- A numeral of `count` characters, which must not run into a name or another digit. -/
def closed (kind : TokenKind) (t : Text) (count : Nat) : Reading :=
  match t.drop count with
  | c :: _ => if isIdStart c || c.isDigit || c == '\\' then none else some (kind, count)
  | [] => some (kind, count)

/-- An integer literal of `count` characters, big if an `n` follows. -/
def closedInteger (value : Double) (t : Text) (count : Nat) : Reading :=
  match t.drop count with
  | 'n' :: _ => closed (.bigint (t.take (count + 1))) t (count + 1)
  | _ => closed (.number value) t count

def readBased (base : Nat) (isDigit : Char → Bool) (t : Text) : Reading :=
  let run := digitRun isDigit (t.drop 2)
  match run, runDigits? run with
  | [], _ => none
  | _, none => none
  | _, some digits =>
      closedInteger (Double.ofFraction (valueInBase base digits) 1) t (2 + run.length)

/-- The exponent at the front of a text and its length; none if it is malformed. -/
def readExponent (t : Text) : Option (Int × Nat) :=
  match t with
  | e :: rest =>
      if e = 'e' ∨ e = 'E' then
        let (negative, signed) : Bool × Nat := match rest with
          | '-' :: _ => (true, 1)
          | '+' :: _ => (false, 1)
          | _ => (false, 0)
        let run := digitRun Char.isDigit (rest.drop signed)
        match run, runDigits? run with
        | [], _ => none
        | _, none => none
        | _, some digits =>
            let n : Int := valueInBase 10 digits
            some (if negative then -n else n, 1 + signed + run.length)
      else some (0, 0)
  | [] => some (0, 0)

def readDecimal (t : Text) : Reading :=
  let run := digitRun Char.isDigit t
  match runDigits? run with
  | none => none
  | some whole =>
      match t.drop run.length with
      | 'n' :: _ => if run.isEmpty then none else closedInteger .infinite t run.length
      | rest =>
          let (fraction, count) : Text × Nat := match rest with
            | '.' :: r =>
                let fraction := digitRun Char.isDigit r
                (fraction, run.length + 1 + fraction.length)
            | _ => ([], run.length)
          match runDigits? fraction, readExponent (t.drop count) with
          | some decimals, some (power, length) =>
              let digits := whole ++ decimals
              if digits.isEmpty then none
              else
                let kept := digits.dropWhile (· == '0')
                let value := Double.ofDecimal (valueInBase 10 kept) kept.length
                  (power - decimals.length)
                closed (.number value) t (count + length)
          | _, _ => none

/-- A numeral that begins with a zero and another digit: octal unless an 8 or 9 occurs. -/
def readLegacy (t : Text) : Reading :=
  let run := t.takeWhile Char.isDigit
  if run.all isOctal then
    closed (.number (Double.ofFraction (valueInBase 8 run) 1)) t run.length
  else
    match t.drop run.length with
    | 'n' :: _ => none
    | '_' :: _ => none
    | _ => readDecimal t

def readNumeral (t : Text) : Reading :=
  match t with
  | '0' :: c :: _ =>
      if c = 'x' ∨ c = 'X' then readBased 16 (fun d => (Text.hexDigit? d).isSome) t
      else if c = 'o' ∨ c = 'O' then readBased 8 isOctal t
      else if c = 'b' ∨ c = 'B' then readBased 2 (fun d => d == '0' || d == '1') t
      else if c = '_' then none
      else if c.isDigit then readLegacy t
      else readDecimal t
  | _ => readDecimal t

structure Name where
  text : Text
  length : Nat
  escaped : Bool

/-- The longest identifier name at the front of a text, escapes read; it may be empty. -/
def readName? : Nat → Bool → Text → Option Name
  | 0, _, _ => some ⟨[], 0, false⟩
  | _ + 1, _, [] => some ⟨[], 0, false⟩
  | fuel + 1, isFirst, c :: rest =>
      if c = '\\' then
        match rest with
        | 'u' :: digits =>
            match unicodeEscape? digits with
            | some (n, after) =>
                let d := Char.ofNat n
                if (if isFirst then isIdStart d else isIdContinue d) then
                  (readName? fuel false after).map fun name =>
                    ⟨d :: name.text, 2 + (digits.length - after.length) + name.length, true⟩
                else none
            | none => none
        | _ => none
      else if (if isFirst then isIdStart c else isIdContinue c) then
        (readName? fuel false rest).map fun name =>
          ⟨c :: name.text, name.length + 1, name.escaped⟩
      else some ⟨[], 0, false⟩

end Literal

end Syntax

end NgFile
