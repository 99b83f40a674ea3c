import NgFile.Text

/-!
# Numerals

The value of a numeric literal is the double nearest to what its digits say.
This module rounds exact fractions to doubles, finds the shortest decimal that
reads back as a given double, and writes it in the two forms that are needed:
the positional form of a number as a property name, and the shortest form of a
number in printed source.  All arithmetic is exact.
-/

namespace NgFile

/-- A non-negative double: `significand * 2 ^ exponent`, or infinity. -/
inductive Double
  | finite (significand : Nat) (exponent : Int)
  | infinite
  deriving DecidableEq

namespace Double

def scaled (m b : Nat) (e : Int) : Nat × Nat :=
  match e with
  | .ofNat n => (m * Nat.pow b n, 1)
  | .negSucc n => (m, Nat.pow b (n + 1))

/-- Quotient rounded to the nearest integer, an exact half to the even one. -/
def roundedQuotient (num den : Nat) : Nat :=
  let q := num / den
  let r := num % den
  if 2 * r < den then q
  else if den < 2 * r then q + 1
  else if q % 2 = 0 then q else q + 1

def unitExponent (num den : Nat) : Int :=
  let guess : Int := (Nat.log2 num : Int) - (Nat.log2 den : Int) - 52
  let (n, d) := (num * (scaled 1 2 (-guess)).1, den * (scaled 1 2 (-guess)).2)
  let exact := if n < d * Nat.pow 2 52 then guess - 1 else guess
  if exact < -1074 then -1074 else exact

def ofFraction (num den : Nat) : Double :=
  if num = 0 then finite 0 0
  else
    let e := unitExponent num den
    let (up, down) := scaled 1 2 (-e)
    let m := roundedQuotient (num * up) (den * down)
    let (m, e) := if m = Nat.pow 2 53 then (Nat.pow 2 52, e + 1) else (m, e)
    if 971 < e then infinite else finite m e

/-- The double nearest to `digits * 10 ^ power`, where `digits` has `count` digits. -/
def ofDecimal (digits count : Nat) (power : Int) : Double :=
  if digits = 0 then finite 0 0
  else if 400 < power + count then infinite
  else if power + count < -400 then finite 0 0
  else
    let (num, den) := scaled digits 10 power
    ofFraction num den

def fraction? : Double → Option (Nat × Nat)
  | finite m e => some (scaled m 2 e)
  | infinite => none

def isWhole : Double → Bool
  | finite m e =>
      let (num, den) := scaled m 2 e
      num % den == 0
  | infinite => false

def floor : Double → Nat
  | finite m e =>
      let (num, den) := scaled m 2 e
      num / den
  | infinite => 0

end Double

/-- A decimal `0.d₁d₂… * 10 ^ point`, by its significant digits. -/
structure ShortDecimal where
  digits : Text
  point : Int

namespace ShortDecimal

def pointFrom (num den : Nat) : Nat → Int → Int
  | 0, p => p
  | fuel + 1, p =>
      let (n, d) := Double.scaled 1 10 p
      if num * d < den * n then p else pointFrom num den fuel (p + 1)

/-- The decimal point of a positive fraction: `10 ^ (p - 1) ≤ num / den < 10 ^ p`. -/
def pointOf (num den : Nat) : Int :=
  let bits : Int := (Nat.log2 num : Int) - (Nat.log2 den : Int)
  pointFrom num den 8 ((bits - 1) * 30103 / 100000 - 1)

/-- The better of the two `count`-digit neighbours of a fraction, if one reads back as `v`. -/
def candidate? (v : Double) (num den : Nat) (point : Int) (count : Nat) : Option Nat :=
  let (up, down) := Double.scaled 1 10 (count - point)
  let low := num * up / (den * down)
  let reads (n : Nat) : Bool := Double.ofFraction (n * down) up == v
  let below := num * up - low * (den * down)
  let above := (low + 1) * (den * down) - num * up
  match reads low, reads (low + 1) with
  | true, true => some (if below < above || (below == above && low % 2 == 0) then low else low + 1)
  | true, false => some low
  | false, true => some (low + 1)
  | false, false => none

def searchFrom (v : Double) (num den : Nat) (point : Int) : Nat → Nat → Option (Nat × Nat)
  | 0, _ => none
  | fuel + 1, count =>
      match candidate? v num den point count with
      | some n => some (n, count)
      | none => searchFrom v num den point fuel (count + 1)

/-- The shortest decimal that reads back as the double; zero has the digit 0. -/
def ofDouble (v : Double) : ShortDecimal :=
  match v.fraction? with
  | none => ⟨[], 0⟩
  | some (num, den) =>
      if num = 0 then ⟨['0'], 1⟩
      else
        let point := pointOf num den
        match searchFrom v num den point 17 1 with
        | none => ⟨Text.ofNat (num / den), (Text.ofNat (num / den)).length⟩
        | some (n, count) =>
            let digits := Text.ofNat n
            ⟨Text.trimEndBy (· == '0') digits, point + (digits.length - count)⟩

end ShortDecimal

namespace Numeral

def ofInt (i : Int) : Text :=
  match i with
  | .ofNat n => Text.ofNat n
  | .negSucc n => '-' :: Text.ofNat (n + 1)

def positional (v : Double) : Text :=
  match v with
  | .infinite => "inf"
  | v =>
      let d := ShortDecimal.ofDouble v
      let count : Int := d.digits.length
      let n := d.point
      if count ≤ n then d.digits ++ List.replicate (n - count).toNat '0'
      else if 0 < n then d.digits.take n.toNat ++ '.' :: d.digits.drop n.toNat
      else "0." ++ List.replicate (-n).toNat '0' ++ d.digits

/--
The standard form of a number: positional when the decimal point lies within 21
digits after the first digit and at most 6 places before it, exponential else.
-/
def standard (v : Double) : Text :=
  match v with
  | .infinite => "Infinity"
  | v =>
      let d := ShortDecimal.ofDouble v
      let count : Int := d.digits.length
      let n := d.point
      if count ≤ n && n ≤ 21 then d.digits ++ List.replicate (n - count).toNat '0'
      else if 0 < n && n ≤ 21 then d.digits.take n.toNat ++ '.' :: d.digits.drop n.toNat
      else if -6 < n && n ≤ 0 then "0." ++ List.replicate (-n).toNat '0' ++ d.digits
      else
        let e := n - 1
        let sign : Text := if e < 0 then "e-" else "e+"
        let tail := sign ++ Text.ofNat e.natAbs
        match d.digits with
        | [] => tail
        | [c] => c :: tail
        | c :: rest => c :: '.' :: rest ++ tail

def withoutPlus : Text → Text
  | 'e' :: '+' :: rest => 'e' :: rest
  | c :: rest => c :: withoutPlus rest
  | [] => []

/-- `.000ddd` as `ddde-n`. -/
def fractionForm? (t : Text) : Option Text :=
  match t with
  | '.' :: '0' :: rest =>
      let digits := rest.dropWhile (· == '0')
      if digits.isEmpty then none else some (digits ++ "e-" ++ Text.ofNat (t.length - 1))
  | _ => none

def zerosForm? (t : Text) : Option Text :=
  let base := Text.trimEndBy (· == '0') t
  if base.isEmpty || base.length == t.length then none
  else some (base ++ 'e' :: Text.ofNat (t.length - base.length))

def readInt (t : Text) : Int :=
  let value (digits : Text) : Nat := digits.foldl (fun n c => 10 * n + (c.toNat - 48)) 0
  match t with
  | '-' :: digits => -(value digits : Int)
  | digits => value digits

def pointForm? (t : Text) : Option Text :=
  let whole := t.takeWhile (· ≠ '.')
  match t.drop whole.length with
  | '.' :: rest =>
      let point := rest.takeWhile (· ≠ 'e')
      match rest.drop point.length with
      | 'e' :: power => some (whole ++ point ++ 'e' :: ofInt (readInt power - point.length))
      | _ => none
  | _ => none

def hexForm? (v : Double) : Option Text :=
  if v.isWhole then some ("0x" ++ Text.hexOfNat (min v.floor (Nat.pow 2 128 - 1))) else none

def shorter (t : Text) (other : Option Text) : Text :=
  match other with
  | some o => if o.length < t.length then o else t
  | none => t

/--
The shortest source form of a number.  Each form has to be shorter than the ones tried before
it; a whole number that is shorter in hexadecimal is not tried any further.
-/
def shortest (v : Double) : Text :=
  let plain := standard v
  if v.isWhole && v.floor < 1000 then plain
  else
    let t := withoutPlus (match plain with
      | '0' :: '.' :: rest => '.' :: rest
      | t => t)
    match hexForm? v with
    | some hex =>
        if hex.length < t.length then hex
        else
          let t := shorter t (zerosForm? t)
          shorter t (pointForm? t)
    | none =>
        let t := shorter t (fractionForm? t)
        let t := shorter t (zerosForm? t)
        shorter t (pointForm? t)

end Numeral

end NgFile
