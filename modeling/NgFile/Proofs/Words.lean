import NgFile.Syntax.Tokens

/-!
# Words and numerals

A word without escapes goes on as long as its characters may stand in a name, and a whole
number as long as there are digits.  Both are read in front of any text that ends them.
-/

namespace NgFile

open Syntax

namespace Lexeme

/-! ## Characters -/

theorem isAlpha_iff {c : Char} :
    c.isAlpha = true ↔ (65 ≤ c.toNat ∧ c.toNat ≤ 90) ∨ (97 ≤ c.toNat ∧ c.toNat ≤ 122) := by
  change (decide (c.val ≥ 'A'.val ∧ c.val ≤ 'Z'.val) ||
    (decide (c.val ≥ 'a'.val) && decide (c.val ≤ 'z'.val))) = true ↔ _
  simp only [Bool.or_eq_true, Bool.and_eq_true, decide_eq_true_eq, UInt32.le_iff_toNat_le,
    ge_iff_le]
  rfl

theorem isAlpha_bounds {c : Char} (h : c.isAlpha = true) : 65 ≤ c.toNat ∧ c.toNat ≤ 122 := by
  have hc := isAlpha_iff.1 h
  omega

theorem isDigit_eq_false_of_isAlpha {c : Char} (h : c.isAlpha = true) : c.isDigit = false := by
  rw [← Bool.not_eq_true, Char.isDigit_iff_toNat]
  intro hdigit
  have hc := isAlpha_iff.1 h
  have hhigh : c.toNat ≤ 57 := hdigit.2
  omega

def BeginsToken (c : Char) : Prop :=
  c ≠ '/' ∧ c ≠ '#' ∧ isLineEnd c = false ∧ isSpace c = false

/-- The code points of blanks, line ends, the slash and the number sign. -/
def separatorPoints : List Nat :=
  [0x23, 0x2F, 9, 0xA, 0xB, 0xC, 0xD, 0x20, 0x85, 0xA0, 0x1680, 0x2028, 0x2029, 0x202F, 0x205F,
    0x3000, 0xFEFF] ++ List.range' 0x2000 12

theorem beginsToken_of_not_mem {c : Char} (h : c.toNat ∉ separatorPoints) :
    BeginsToken c := by
  have hne (d : Char) (hd : d.toNat ∈ separatorPoints) : c ≠ d := fun heq => h (heq ▸ hd)
  simp only [separatorPoints, List.mem_append, List.mem_cons, List.mem_range'_1, List.not_mem_nil,
    or_false, not_or, not_and] at h
  refine ⟨hne '/' (by decide), hne '#' (by decide), ?_, ?_⟩
  · simp [isLineEnd, hne '\n' (by decide), hne '\r' (by decide), h]
  · simp [isSpace, h]
    omega

theorem beginsToken_of_isIdStart {c : Char} (h : isIdStart c = true) : BeginsToken c := by
  have hpoints : ∀ n ∈ separatorPoints, isIdStart (Char.ofNat n) = false := by decide +kernel
  refine beginsToken_of_not_mem fun hmem => ?_
  have hfalse := hpoints _ hmem
  rw [Char.ofNat_toNat, h] at hfalse
  cases hfalse

/-! ## Words -/

/-- Whether a text is a word of the language without escapes. -/
def isWordText : Text → Bool
  | [] => false
  | c :: rest => isIdStart c && rest.all isIdContinue

/-- Whether a word that ends in front of a text is read no further. -/
def EndsWord (t : Text) : Prop :=
  ∀ c ∈ t.head?, isIdContinue c = false ∧ c ≠ '\\'

theorem ne_backslash_of_isIdContinue {c : Char} (h : isIdContinue c = true) : c ≠ '\\' := by
  rintro rfl
  exact absurd h (by decide)

theorem readName?_false_word {word t : Text} (hw : word.all isIdContinue) (ht : EndsWord t)
    {fuel : Nat} (hfuel : word.length < fuel) :
    Literal.readName? fuel false (word ++ t) = some ⟨word, word.length, false⟩ := by
  induction word generalizing fuel with
  | nil =>
      obtain ⟨fuel, rfl⟩ := Nat.exists_eq_add_of_lt hfuel
      cases t with
      | nil => simp [Literal.readName?]
      | cons c rest =>
          obtain ⟨hc, hne⟩ := ht c (by simp)
          simp [Literal.readName?, hc, hne]
  | cons c word ih =>
      simp only [List.all_cons, Bool.and_eq_true] at hw
      obtain ⟨n, rfl⟩ : ∃ n, fuel = n + 1 := ⟨fuel - 1, by simp at hfuel; omega⟩
      have hlength : word.length < n := by simpa using hfuel
      have hrest := ih hw.2 hlength
      simp [Literal.readName?, ne_backslash_of_isIdContinue hw.1, hw.1, hrest]

theorem readName?_word {c : Char} {word t : Text} (hc : isIdStart c = true)
    (hw : word.all isIdContinue) (ht : EndsWord t) {fuel : Nat} (hfuel : word.length < fuel) :
    Literal.readName? (fuel + 1) true (c :: (word ++ t)) =
      some ⟨c :: word, word.length + 1, false⟩ := by
  have hrest := readName?_false_word hw ht hfuel
  have hne := ne_backslash_of_isIdContinue (isIdContinue_of_isIdStart hc)
  simp [Literal.readName?, hne, hc, hrest]

theorem isWordText_cons {c : Char} {rest : Text} :
    isWordText (c :: rest) = true ↔ isIdStart c = true ∧ rest.all isIdContinue = true := by
  simp [isWordText]

theorem exists_cons_of_isWordText {word : Text} (h : isWordText word = true) :
    ∃ c rest, word = c :: rest ∧ isIdStart c = true := by
  cases word with
  | nil => cases h
  | cons c rest => exact ⟨c, rest, rfl, (isWordText_cons.1 h).1⟩

theorem ofText?_text (k : Keyword) : Keyword.ofText? k.text = some k := by
  cases k <;> rfl

theorem isWordText_text (k : Keyword) : isWordText k.text = true := by
  cases k <;> decide

theorem readKind_word {word t : Text} (hw : isWordText word = true) (ht : EndsWord t)
    {limit : Nat} (hlimit : word.length ≤ limit) :
    readKind limit (word ++ t) = (wordKind word false, word.length) := by
  cases word with
  | nil => cases hw
  | cons c word =>
      obtain ⟨hstart, hcontinue⟩ := isWordText_cons.1 hw
      have hlength : word.length < limit := by
        simp only [List.length_cons] at hlimit
        omega
      have hname := readName?_word hstart hcontinue ht hlength
      simp [readKind, hstart, hname]

/-! ## Numerals -/

/-- Whether a text is a whole number in decimal; a zero in front stands alone. -/
def isDecimal : Text → Bool
  | [] => false
  | c :: rest => c.isDigit && rest.all Char.isDigit && (c != '0' || rest.isEmpty)

def decimalValue (digits : Text) : Double :=
  let kept := digits.dropWhile (· == '0')
  .ofDecimal (Literal.valueInBase 10 kept) kept.length 0

def EndsNumeral (t : Text) : Prop :=
  EndsWord t ∧ ∀ c ∈ t.head?, c ≠ '.'

theorem isIdContinue_of_isDigit {c : Char} (h : c.isDigit = true) : isIdContinue c = true := by
  obtain ⟨-, hhigh⟩ := Char.isDigit_iff_toNat.1 h
  have hhigh' : c.toNat ≤ 57 := hhigh
  have hlt : c.toNat < 0x80 := by omega
  simp [isIdContinue, hlt, Char.isAlphanum, h]

theorem isIdStart_eq_false_of_isDigit {c : Char} (h : c.isDigit = true) :
    isIdStart c = false := by
  obtain ⟨hlow, hhigh⟩ := Char.isDigit_iff_toNat.1 h
  have hlow' : 48 ≤ c.toNat := hlow
  have hhigh' : c.toNat ≤ 57 := hhigh
  have hdigits : ∀ n < 58, 48 ≤ n → isIdStart (Char.ofNat n) = false := by decide
  have hc := hdigits c.toNat (by omega) hlow'
  rwa [Char.ofNat_toNat] at hc

theorem exists_cons_of_isDecimal {digits : Text} (h : isDecimal digits = true) :
    ∃ c rest, digits = c :: rest ∧ c.isDigit = true := by
  cases digits with
  | nil => cases h
  | cons c rest =>
      simp only [isDecimal, Bool.and_eq_true] at h
      exact ⟨c, rest, rfl, h.1.1⟩

theorem beginsToken_of_isDigit {c : Char} (h : c.isDigit = true) : BeginsToken c := by
  obtain ⟨hlow, hhigh⟩ := Char.isDigit_iff_toNat.1 h
  have hlow' : 48 ≤ c.toNat := hlow
  have hhigh' : c.toNat ≤ 57 := hhigh
  refine beginsToken_of_not_mem fun hmem => ?_
  have hpoints : ∀ n ∈ separatorPoints, ¬ (48 ≤ n ∧ n ≤ 57) := by decide
  exact hpoints _ hmem ⟨hlow', hhigh'⟩

theorem digitRun_append {digits t : Text} (hdigits : digits.all Char.isDigit = true)
    (ht : EndsWord t) : Literal.digitRun Char.isDigit (digits ++ t) = digits := by
  have hall : ∀ c ∈ digits, (c.isDigit || c == '_') = true := by
    intro c hc
    rw [List.all_eq_true.1 hdigits c hc, Bool.true_or]
  rw [Literal.digitRun, List.takeWhile_append_of_pos hall]
  cases t with
  | nil => simp
  | cons c rest =>
      have hcontinue := (ht c rfl).1
      have hdigit : c.isDigit = false := by
        rw [← Bool.not_eq_true]
        intro h
        rw [isIdContinue_of_isDigit h] at hcontinue
        cases hcontinue
      have hline : c ≠ '_' := by
        rintro rfl
        exact absurd hcontinue (by decide)
      simp [hdigit, hline]

theorem runDigits?_digits {digits : Text} (hdigits : digits.all Char.isDigit = true) :
    Literal.runDigits? digits = some digits := by
  have hline : '_' ∉ digits := fun h => absurd (List.all_eq_true.1 hdigits _ h) (by decide)
  have hkept : digits.filter (· ≠ '_') = digits := by
    refine List.filter_eq_self.2 fun c hc => ?_
    rw [decide_eq_true_eq]
    rintro rfl
    exact hline hc
  rw [Literal.runDigits?, Text.pieces_of_not_mem hline, hkept]
  cases digits <;> rfl

theorem closed_of_endsWord {digits t : Text} (ht : EndsWord t) (kind : TokenKind) :
    Literal.closed kind (digits ++ t) digits.length = some (kind, digits.length) := by
  rw [Literal.closed, List.drop_left]
  cases t with
  | nil => rfl
  | cons c rest =>
      obtain ⟨hcontinue, hne⟩ := ht c rfl
      have hstart : isIdStart c = false := by
        rw [← Bool.not_eq_true]
        intro h
        rw [isIdContinue_of_isIdStart h] at hcontinue
        cases hcontinue
      have hdigit : c.isDigit = false := by
        rw [← Bool.not_eq_true]
        intro h
        rw [isIdContinue_of_isDigit h] at hcontinue
        cases hcontinue
      simp [hstart, hdigit, hne]

theorem ne_of_endsWord {c d : Char} {t : Text} (ht : EndsWord (c :: t))
    (hd : isIdContinue d = true) : c ≠ d := by
  rintro rfl
  rw [(ht c rfl).1] at hd
  cases hd

theorem readExponent_of_endsWord {t : Text} (ht : EndsWord t) :
    Literal.readExponent t = some (0, 0) := by
  cases t with
  | nil => rfl
  | cons c rest =>
      have hsmall := ne_of_endsWord ht (d := 'e') (by decide)
      have hlarge := ne_of_endsWord ht (d := 'E') (by decide)
      simp [Literal.readExponent, hsmall, hlarge]

theorem readDecimal_digits {digits t : Text} (hne : digits ≠ [])
    (hdigits : digits.all Char.isDigit = true) (ht : EndsNumeral t) :
    Literal.readDecimal (digits ++ t) =
      some (.number (decimalValue digits), digits.length) := by
  obtain ⟨hword, hdot⟩ := ht
  have hclosed : Literal.closed (.number (decimalValue digits)) (digits ++ t) digits.length =
      some (.number (decimalValue digits), digits.length) := closed_of_endsWord hword _
  have hexponent := readExponent_of_endsWord hword
  have hnone : Literal.runDigits? [] = some [] := rfl
  unfold Literal.readDecimal
  dsimp only
  rw [digitRun_append hdigits hword, runDigits?_digits hdigits, List.drop_left]
  cases t with
  | nil =>
      simp [hnone, hexponent, hne] at hclosed ⊢
      exact hclosed
  | cons c rest =>
      have hbig := ne_of_endsWord hword (d := 'n') (by decide)
      have hpoint : c ≠ '.' := hdot c rfl
      simp [hbig, hpoint, hnone, hexponent, hne]
      exact hclosed

/-- A whole number is read up to what ends it. -/
theorem readNumeral_decimal {digits t : Text} (h : isDecimal digits = true)
    (ht : EndsNumeral t) :
    Literal.readNumeral (digits ++ t) =
      some (.number (decimalValue digits), digits.length) := by
  cases digits with
  | nil => cases h
  | cons c rest =>
      simp only [isDecimal, Bool.and_eq_true, Bool.or_eq_true, bne_iff_ne, ne_eq,
        List.isEmpty_iff] at h
      obtain ⟨⟨hc, hrest⟩, hzero⟩ := h
      have hall : (c :: rest).all Char.isDigit = true := by simp [hc, hrest]
      rw [← readDecimal_digits (List.cons_ne_nil c rest) hall ht, List.cons_append]
      unfold Literal.readNumeral
      split
      · -- A zero stands alone, and what ends it is no mark of another base.
        rename_i d more heq
        obtain ⟨rfl, hmore⟩ := List.cons.inj heq
        obtain rfl : rest = [] := hzero.resolve_left (fun h => h rfl)
        rw [List.nil_append] at hmore
        subst hmore
        have hword (e : Char) (he : isIdContinue e = true) : d ≠ e := ne_of_endsWord ht.1 he
        have hdigit : d.isDigit = false := by
          rw [← Bool.not_eq_true]
          exact fun h => hword d (isIdContinue_of_isDigit h) rfl
        simp [hdigit, hword 'x' (by decide), hword 'X' (by decide), hword 'o' (by decide),
          hword 'O' (by decide), hword 'b' (by decide), hword 'B' (by decide),
          hword '_' (by decide)]
      · rfl

theorem readKind_numeral {digits t : Text} (h : isDecimal digits = true) (ht : EndsNumeral t)
    (limit : Nat) :
    readKind limit (digits ++ t) = (.number (decimalValue digits), digits.length) := by
  have hnumeral := readNumeral_decimal h ht
  cases digits with
  | nil => cases h
  | cons c rest =>
      simp only [isDecimal, Bool.and_eq_true] at h
      have hc := h.1.1
      have hstart := isIdStart_eq_false_of_isDigit hc
      have hne (d : Char) (hd : d.isDigit = false) : c ≠ d := by
        rintro rfl
        rw [hc] at hd
        cases hd
      rw [List.cons_append] at hnumeral ⊢
      simp [readKind, hstart, hne '\\' (by decide), hne '\x22' (by decide),
        hne '\'' (by decide), hne Text.graveAccent (by decide), hc, hnumeral]

end Lexeme

end NgFile
