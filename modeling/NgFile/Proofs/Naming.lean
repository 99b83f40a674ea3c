import NgFile.Names
import NgFile.Proofs.Lexeme

/-!
# The characters of names

The naming variants of an identifier are made of ASCII letters, digits, low lines and
hyphens, apart from the characters that the file name keeps.  Of the characters that need
an escape between single quotes the file name keeps all, and no other character becomes
one of them.
-/

namespace NgFile

open Lexeme

/-- The characters that need an escape between single quotes. -/
def quoteSpecials : List Char :=
  ['\'', '\\', '\n', '\r']

instance (p : Char → Prop) [DecidablePred p] : Decidable (∀ c ∈ quoteSpecials, p c) :=
  List.decidableBAll p quoteSpecials

theorem isVerbatim_iff (t : Text) : IsVerbatim t ↔ ∀ c ∈ quoteSpecials, c ∉ t := by
  simp only [quoteSpecials, List.forall_mem_cons, List.not_mem_nil, false_implies, implies_true,
    and_true]
  constructor
  · intro h
    exact ⟨fun hc => (h _ hc).1 rfl, fun hc => (h _ hc).2.1 rfl, fun hc => (h _ hc).2.2.1 rfl,
      fun hc => (h _ hc).2.2.2 rfl⟩
  · intro ⟨hquote, hbackslash, hfeed, hreturn⟩ c hc
    exact ⟨fun h => hquote (h ▸ hc), fun h => hbackslash (h ▸ hc), fun h => hfeed (h ▸ hc),
      fun h => hreturn (h ▸ hc)⟩

theorem isVerbatim_append (s t : Text) : IsVerbatim (s ++ t) ↔ IsVerbatim s ∧ IsVerbatim t := by
  simp only [IsVerbatim, List.forall_mem_append]

/-! ## Lower case -/

namespace Text

/-- No simple lower-case mapping goes below the small letters. -/
theorem small_le_lowerRuns : ∀ run ∈ lowerRuns, 97 ≤ (run.span.first : Int) + run.shift := by
  decide +kernel

theorem not_mem_lowerRuns {c : Char} (hc : c ∈ quoteSpecials) :
    ∀ run ∈ lowerRuns, run.span.contains c.toNat = false := by
  have h : ∀ c ∈ quoteSpecials, ∀ run ∈ lowerRuns, run.span.contains c.toNat = false := by
    decide +kernel
  exact h c hc

theorem toNat_le_of_mem_quoteSpecials {c : Char} (hc : c ∈ quoteSpecials) :
    0 < c.toNat ∧ c.toNat < 97 := by
  have h : ∀ c ∈ quoteSpecials, 0 < c.toNat ∧ c.toNat < 97 := by decide
  exact h c hc

theorem ofNat_ne_of_mem_quoteSpecials {n : Nat} (hn : 97 ≤ n) {c : Char}
    (hc : c ∈ quoteSpecials) : Char.ofNat n ≠ c := by
  have hbounds := toNat_le_of_mem_quoteSpecials hc
  intro h
  by_cases hvalid : n.isValidChar
  · have hnat : (Char.ofNat n).toNat = n := by
      rw [Char.ofNat, dif_pos hvalid]
      rfl
    rw [h] at hnat
    omega
  · have hnat : (Char.ofNat n).toNat = 0 := by
      rw [Char.ofNat, dif_neg hvalid]
      rfl
    rw [h] at hnat
    omega

theorem mem_lowerChar_iff {c d : Char} (hd : d ∈ quoteSpecials) : d ∈ lowerChar c ↔ d = c := by
  have hbounds := toNat_le_of_mem_quoteSpecials hd
  unfold lowerChar
  split
  · -- The dotted capital I becomes two characters.
    rename_i hc
    have hne : d ≠ c := by
      rintro rfl
      omega
    have hi := (ofNat_ne_of_mem_quoteSpecials (show 97 ≤ 0x69 by decide) hd).symm
    have hdot := (ofNat_ne_of_mem_quoteSpecials (show 97 ≤ 0x307 by decide) hd).symm
    simp [hne, hi, hdot]
  · split
    · rename_i run hrun
      have hmem := List.mem_of_find?_eq_some hrun
      have hspan : run.span.contains c.toNat = true := by
        simpa using List.find?_some hrun
      have hne : d ≠ c := by
        rintro rfl
        rw [not_mem_lowerRuns hd run hmem] at hspan
        exact Bool.false_ne_true hspan
      have hfirst : run.span.first ≤ c.toNat := by
        simp [Stride.contains] at hspan
        exact hspan.1.1
      have hlow := small_le_lowerRuns run hmem
      have himage : 97 ≤ ((c.toNat : Int) + run.shift).toNat := by omega
      have hd' := (ofNat_ne_of_mem_quoteSpecials himage hd).symm
      simp [hne, hd']
    · simp

theorem mem_lowerAfter_iff {d : Char} (hd : d ∈ quoteSpecials) (inWord : Bool) (t : Text) :
    d ∈ lowerAfter inWord t ↔ d ∈ t := by
  have hbounds := toNat_le_of_mem_quoteSpecials hd
  induction t generalizing inWord with
  | nil => simp [lowerAfter]
  | cons c rest ih =>
      simp only [lowerAfter, List.mem_append, List.mem_cons, ih]
      by_cases hsigma : c.toNat = 0x3A3
      · -- A capital sigma has two small letters, for the end of a word and for the rest of it.
        have hne : d ≠ c := by
          rintro rfl
          omega
        have hfinal := (ofNat_ne_of_mem_quoteSpecials (show 97 ≤ 0x3C2 by decide) hd).symm
        have hmiddle := (ofNat_ne_of_mem_quoteSpecials (show 97 ≤ 0x3C3 by decide) hd).symm
        simp only [hsigma, if_true, List.mem_singleton, hne, false_or]
        split <;> simp [hfinal, hmiddle]
      · simp only [hsigma, if_false, mem_lowerChar_iff hd]

theorem mem_lowered_iff {d : Char} (hd : d ∈ quoteSpecials) (t : Text) :
    d ∈ lowered t ↔ d ∈ t :=
  mem_lowerAfter_iff hd false t

end Text

/-! ## Variants of an identifier -/

namespace Names

theorem mem_hyphenated_iff {d : Char} (hd : d ≠ '-') (t : Text) : d ∈ hyphenated t ↔ d ∈ t := by
  induction t using hyphenated.induct with
  | case1 => rfl
  | case2 c => rfl
  | case3 c e rest h ih => simp [hyphenated, h, hd, ih]
  | case4 c e rest h ih => simp [hyphenated, h, ih]

theorem eq_dashFor_iff {c d : Char} (hd : d ∈ quoteSpecials) : d = dashFor c ↔ d = c := by
  have hne : ∀ d ∈ quoteSpecials, d ≠ '-' ∧ d ≠ ' ' ∧ d ≠ '_' := by decide
  obtain ⟨hdash, hblank, hline⟩ := hne d hd
  unfold dashFor
  split
  · rename_i h
    have hc : c = ' ' ∨ c = '_' := by simpa using h
    rcases hc with rfl | rfl
    · simp [hdash, hblank]
    · simp [hdash, hline]
  · rfl

theorem mem_map_dashFor_iff {d : Char} (hd : d ∈ quoteSpecials) (t : Text) :
    d ∈ t.map dashFor ↔ d ∈ t := by
  induction t with
  | nil => rfl
  | cons c rest ih => simp only [List.map_cons, List.mem_cons, eq_dashFor_iff hd, ih]

theorem mem_dashed_iff {d : Char} (hd : d ∈ quoteSpecials) (t : Text) : d ∈ dashed t ↔ d ∈ t := by
  cases t with
  | nil => rfl
  | cons c rest =>
      simp only [dashed, List.mem_cons, mem_map_dashFor_iff hd]
      split
      · rfl
      · rw [eq_dashFor_iff hd]

theorem mem_toFileName_iff {d : Char} (hd : d ∈ quoteSpecials) (t : Text) :
    d ∈ toFileName t ↔ d ∈ t := by
  have hdash : ∀ d ∈ quoteSpecials, d ≠ '-' := by decide
  rw [toFileName, mem_dashed_iff hd, Text.mem_lowered_iff hd, mem_hyphenated_iff (hdash d hd)]

theorem isVerbatim_toFileName_iff (t : Text) : IsVerbatim (toFileName t) ↔ IsVerbatim t := by
  simp only [isVerbatim_iff]
  exact forall_congr' fun d => forall_congr' fun hd => not_congr (mem_toFileName_iff hd t)

/-- An ASCII letter, digit or low line needs no escape. -/
theorem isVerbatim_of_isWordChar {t : Text} (h : ∀ c ∈ t, isWordChar c ∨ c = '_') :
    IsVerbatim t := by
  have hspecial : ∀ d ∈ quoteSpecials, ¬ (isWordChar d ∨ d = '_') := by decide
  exact (isVerbatim_iff t).2 fun d hd hmem => hspecial d hd (h d hmem)

theorem toNat_lt_of_isWordChar {c : Char} (h : isWordChar c = true) : c.toNat < 128 := by
  rcases (Bool.or_eq_true _ _).mp h with hletter | hdigit
  · have hbounds := isAlpha_bounds hletter
    omega
  · have hhigh : c.toNat ≤ 57 := (Char.isDigit_iff_toNat.1 hdigit).2
    omega

/-- Raising or lowering an ASCII letter or digit gives one again. -/
theorem isWordChar_case {c : Char} (h : isWordChar c = true) :
    isWordChar c.toUpper = true ∧ isWordChar c.toLower = true := by
  have hascii : ∀ n < 128, isWordChar (Char.ofNat n) = true →
      isWordChar (Char.ofNat n).toUpper = true ∧ isWordChar (Char.ofNat n).toLower = true := by
    decide +kernel
  have hc := hascii c.toNat (toNat_lt_of_isWordChar h)
  rw [Char.ofNat_toNat] at hc
  exact hc h

theorem isWordChar_joinWords (boundary : Bool) (t : Text) :
    ∀ c ∈ joinWords boundary t, isWordChar c = true := by
  induction t generalizing boundary with
  | nil => simp [joinWords]
  | cons c rest ih =>
      unfold joinWords
      split
      · rename_i hc
        refine List.forall_mem_cons.2 ⟨?_, ih false⟩
        split
        · exact (isWordChar_case hc).1
        · exact hc
      · exact ih true

theorem isWordChar_toPropertyName (t : Text) : ∀ c ∈ toPropertyName t, isWordChar c = true := by
  have hjoined := isWordChar_joinWords false t
  unfold toPropertyName uncapitalized
  split
  · simp
  · rename_i c rest hcons
    rw [hcons] at hjoined
    obtain ⟨hc, hrest⟩ := List.forall_mem_cons.1 hjoined
    exact List.forall_mem_cons.2 ⟨(isWordChar_case hc).2, hrest⟩

theorem isWordChar_capitalized {t : Text} (h : ∀ c ∈ t, isWordChar c = true) :
    ∀ c ∈ capitalized t, isWordChar c = true := by
  cases t with
  | nil => exact h
  | cons c rest =>
      obtain ⟨hc, hrest⟩ := List.forall_mem_cons.1 h
      exact List.forall_mem_cons.2 ⟨(isWordChar_case hc).1, hrest⟩

theorem isWordChar_toConstantName (t : Text) :
    ∀ c ∈ toConstantName t, isWordChar c = true ∨ c = '_' := by
  simp only [toConstantName, Text.raisedAscii, List.map_map, List.forall_mem_map,
    Function.comp_apply]
  intro c _
  split
  · rename_i hc
    exact .inl (isWordChar_case hc).1
  · exact .inr rfl

/-- The selector needs no escapes exactly if the identifier needs none. -/
theorem isVerbatim_selector_iff (identifier : Text) :
    IsVerbatim (ofIdentifier identifier).selector ↔ IsVerbatim identifier := by
  have hclass : IsVerbatim (ofIdentifier identifier).className :=
    isVerbatim_of_isWordChar fun c hc =>
      .inl (isWordChar_capitalized (isWordChar_toPropertyName identifier) c hc)
  have hconstant : IsVerbatim (ofIdentifier identifier).constantName :=
    isVerbatim_of_isWordChar (isWordChar_toConstantName identifier)
  have hcomma : IsVerbatim "," := by decide
  have hfile : IsVerbatim (ofIdentifier identifier).fileName ↔ IsVerbatim identifier :=
    isVerbatim_toFileName_iff identifier
  simp only [selector, isVerbatim_append, hfile, hcomma, hclass, hconstant, and_true]

end Names

end NgFile
