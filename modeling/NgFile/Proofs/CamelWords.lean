import Mathlib
import NgFile.Proofs.Naming

/-!
# Words in camel case

A text in camel case has no separators, and its words are told apart by letter case alone: a
new one begins at each capital behind a small letter or a digit.  Hyphenation puts these words
next to each other with hyphens between them, and so a text can be cut into words again after
its separators are gone exactly if letter case still shows each of its words.
-/

namespace NgFile

open Lexeme

namespace Text

/-! ## Letter case of ASCII texts -/

def IsAscii (t : Text) : Prop :=
  ∀ c ∈ t, c.toNat < 128

instance (t : Text) : Decidable (IsAscii t) :=
  decidable_of_iff (t.all (fun c => c.toNat < 128) = true) (by simp [IsAscii])

theorem Stride.contains_of_lt {s : Stride} {n : Nat} (h : n < s.first) : s.contains n = false := by
  have hfirst : ¬ s.first ≤ n := by omega
  simp [Stride.contains, hfirst]

/-- Of the tables of letter case only the first entries reach below 128. -/
theorem tables_beyond_ascii :
    (∀ run ∈ lowerRuns.tail, 128 ≤ run.span.first) ∧
      ∀ s ∈ raisedStrides.tail, 128 ≤ s.first := by
  decide +kernel

theorem contains_capitals (c : Char) : Stride.contains ⟨0x41, 0x5A, 1⟩ c.toNat = c.isUpper := by
  simp [Stride.contains, Char.isUpper, UInt32.le_iff_toNat_le, Nat.mod_one]

theorem contains_small_letters (c : Char) :
    Stride.contains ⟨0x61, 0x7A, 1⟩ c.toNat = c.isLower := by
  simp [Stride.contains, Char.isLower, UInt32.le_iff_toNat_le, Nat.mod_one]

theorem lowerChar_ascii {c : Char} (hc : c.toNat < 128) : lowerChar c = [c.toLower] := by
  have hdotted : c.toNat ≠ 0x130 := by omega
  have hother : lowerRuns.tail.find? (fun run => run.span.contains c.toNat) = none := by
    rw [List.find?_eq_none]
    intro run hrun
    rw [Stride.contains_of_lt (hc.trans_le (tables_beyond_ascii.1 run hrun))]
    exact Bool.false_ne_true
  have hruns : lowerRuns = ⟨⟨0x41, 0x5A, 1⟩, 32⟩ :: lowerRuns.tail := rfl
  rw [lowerChar, if_neg hdotted, hruns, List.find?_cons, contains_capitals, hother]
  by_cases hupper : c.isUpper = true
  · rw [hupper, Char.toLower_eq_of_isUpper hupper]
    rfl
  · rw [Char.toLower_eq_of_not_isUpper hupper, Bool.eq_false_iff.2 hupper]

theorem changesWhenRaised_ascii {c : Char} (hc : c.toNat < 128) :
    changesWhenRaised c = c.isLower := by
  have hother : raisedStrides.tail.any (fun s => s.contains c.toNat) = false := by
    rw [List.any_eq_false]
    intro s hs
    rw [Stride.contains_of_lt (hc.trans_le (tables_beyond_ascii.2 s hs))]
    exact Bool.false_ne_true
  have hstrides : raisedStrides = ⟨0x61, 0x7A, 1⟩ :: raisedStrides.tail := rfl
  rw [changesWhenRaised, hstrides, List.any_cons, contains_small_letters, hother, Bool.or_false]

theorem lowerAfter_ascii {t : Text} (ht : IsAscii t) (inWord : Bool) :
    lowerAfter inWord t = t.map Char.toLower := by
  induction t generalizing inWord with
  | nil => rfl
  | cons c rest ih =>
      obtain ⟨hc, hrest⟩ := List.forall_mem_cons.1 ht
      have hsigma : c.toNat ≠ 0x3A3 := by omega
      simp only [lowerAfter, hsigma, if_false, lowerChar_ascii hc, ih hrest, List.map_cons,
        List.singleton_append]

theorem lowered_ascii {t : Text} (ht : IsAscii t) : lowered t = t.map Char.toLower :=
  lowerAfter_ascii ht false

theorem isRaised_ascii {t : Text} (ht : IsAscii t) (h : ∀ c ∈ t, c.isLower = false) :
    isRaised t = true := by
  rw [isRaised, List.all_eq_true]
  intro c hc
  rw [changesWhenRaised_ascii (ht c hc), h c hc]
  rfl

/-! ## Joined texts -/

theorem map_eq_self {α : Type} {f : α → α} {l : List α} (h : ∀ x ∈ l, f x = x) : l.map f = l :=
  (List.map_congr_left h).trans (List.map_id l)

theorem map_words_eq_self {f : Char → Char} {words : List Text}
    (h : ∀ w ∈ words, ∀ c ∈ w, f c = c) : words.map (List.map f) = words :=
  map_eq_self fun w hw => map_eq_self (h w hw)

theorem joinWith_cons_cons (sep w v : Text) (more : List Text) :
    joinWith sep (w :: v :: more) = w ++ sep ++ joinWith sep (v :: more) := rfl

theorem map_joinWith (f : Char → Char) (sep : Text) (words : List Text) :
    (joinWith sep words).map f = joinWith (sep.map f) (words.map (List.map f)) := by
  induction words with
  | nil => rfl
  | cons w more ih =>
      cases more with
      | nil => rfl
      | cons v more =>
          rw [joinWith_cons_cons, List.map_append, List.map_append, ih]
          rfl

theorem mem_joinWith {sep : Text} {words : List Text} {c : Char} (h : c ∈ joinWith sep words) :
    c ∈ sep ∨ ∃ w ∈ words, c ∈ w := by
  induction words with
  | nil => cases h
  | cons w more ih =>
      cases more with
      | nil => exact .inr ⟨w, List.mem_singleton_self w, h⟩
      | cons v more =>
          rw [joinWith_cons_cons, List.append_assoc, List.mem_append, List.mem_append] at h
          rcases h with hw | hsep | hmore
          · exact .inr ⟨w, List.mem_cons_self, hw⟩
          · exact .inl hsep
          · refine (ih hmore).imp_right ?_
            rintro ⟨u, hu, hc⟩
            exact ⟨u, List.mem_cons_of_mem w hu, hc⟩

/-- Words without the separator are the pieces between its occurrences. -/
theorem pieces_joinWith {sep : Char} {words : List Text} (hne : words ≠ [])
    (h : ∀ w ∈ words, sep ∉ w) : pieces sep (joinWith [sep] words) = words := by
  induction words with
  | nil => exact absurd rfl hne
  | cons w more ih =>
      obtain ⟨hw, hmore⟩ := List.forall_mem_cons.1 h
      cases more with
      | nil => exact pieces_of_not_mem hw
      | cons v more =>
          rw [joinWith_cons_cons, List.append_assoc, List.singleton_append, pieces_append_cons,
            pieces_of_not_mem hw, ih (List.cons_ne_nil v more) hmore, List.singleton_append]

end Text

namespace Names

/-! ## Words of a text -/

/-- Whether a word ends between two neighbouring characters: a capital stands behind a small
letter or a digit. -/
def isBoundary (c d : Char) : Bool :=
  (c.isLower || c.isDigit) && d.isUpper

/-- The words of a text as letter case shows them. -/
def camelWords (t : Text) : List Text :=
  t.splitBy fun c d => !isBoundary c d

def WordEndsBetween (w v : Text) : Prop :=
  ∃ hw hv, isBoundary (w.getLast hw) (v.head hv) = true

def IsOneWord (w : Text) : Prop :=
  w.IsChain fun c d => isBoundary c d = false

theorem camelWords_eq_iff {t : Text} {words : List Text} :
    camelWords t = words ↔
      t = words.flatten ∧ [] ∉ words ∧ (∀ w ∈ words, IsOneWord w) ∧
        words.IsChain WordEndsBetween := by
  have hiff := List.splitBy_eq_iff (r := fun c d => !isBoundary c d) (m := t) (l := words)
  simp only [Bool.not_eq_true', Bool.not_eq_false'] at hiff
  exact hiff

theorem camelWords_cons_of_boundary {c d : Char} (rest : Text) (h : isBoundary c d = true) :
    camelWords (c :: d :: rest) = [c] :: camelWords (d :: rest) := by
  have hsplit := List.splitBy_append_cons (r := fun c d => !isBoundary c d) (l := [c]) (a := d)
    rest (by simpa using h)
  exact hsplit

theorem exists_camelWords_cons {c d : Char} (rest : Text) (h : isBoundary c d = false) :
    ∃ w more, camelWords (d :: rest) = w :: more ∧
      camelWords (c :: d :: rest) = (c :: w) :: more := by
  cases hwords : camelWords (d :: rest) with
  | nil => exact absurd hwords (List.splitBy_ne_nil.2 (List.cons_ne_nil d rest))
  | cons w more =>
      obtain ⟨hflat, hnil, hone, hends⟩ := camelWords_eq_iff.1 hwords
      obtain ⟨e, w, rfl⟩ : ∃ e w', w = e :: w' :=
        List.exists_cons_of_ne_nil fun hw => hnil (hw ▸ List.mem_cons_self)
      obtain ⟨rfl, hrest⟩ : d = e ∧ rest = w ++ more.flatten := by simpa using hflat
      refine ⟨d :: w, more, rfl, camelWords_eq_iff.2 ⟨?_, ?_, ?_, ?_⟩⟩
      · rw [hrest]
        rfl
      · intro hmem
        exact hnil (List.mem_cons_of_mem _ ((List.mem_cons.1 hmem).resolve_left nofun))
      · obtain ⟨hw, hmore⟩ := List.forall_mem_cons.1 hone
        exact List.forall_mem_cons.2 ⟨List.isChain_cons_cons.2 ⟨h, hw⟩, hmore⟩
      · obtain ⟨hnext, hmore⟩ := List.isChain_cons.1 hends
        refine List.isChain_cons.2 ⟨fun v hv => ?_, hmore⟩
        obtain ⟨hw, hv, hboundary⟩ := hnext v hv
        exact ⟨List.cons_ne_nil c _, hv, by rwa [List.getLast_cons hw]⟩

/-- Hyphenation puts hyphens between the words, and nowhere else. -/
theorem hyphenated_eq_joinWith (t : Text) :
    hyphenated t = Text.joinWith ['-'] (camelWords t) := by
  -- The words are cut where the function puts a hyphen, so its own cases are the right ones.
  induction t using hyphenated.induct with
  | case1 => rfl
  | case2 c => rfl
  | case3 c d rest h ih =>
      rw [camelWords_cons_of_boundary rest h, hyphenated, if_pos h, ih]
      cases hwords : camelWords (d :: rest) with
      | nil => exact absurd hwords (List.splitBy_ne_nil.2 (List.cons_ne_nil d rest))
      | cons w more => rfl
  | case4 c d rest h ih =>
      obtain ⟨w, more, hwords, hcons⟩ :=
        exists_camelWords_cons rest (Bool.not_eq_true _ ▸ h : isBoundary c d = false)
      rw [hcons, hyphenated, if_neg h, ih, hwords]
      cases more <;> rfl

/-! ## Words that are joined and found again -/

structure IsSmallWord (w : Text) : Prop where
  ne_nil : w ≠ []
  small : ∀ c ∈ w, c.isLower = true ∨ c.isDigit = true

instance (w : Text) : Decidable (IsSmallWord w) :=
  decidable_of_iff (w ≠ [] ∧ w.all (fun c => c.isLower || c.isDigit) = true)
    ⟨fun h => ⟨h.1, by simpa using h.2⟩, fun h => ⟨h.ne_nil, by simpa using h.small⟩⟩

/--
Words that can be told apart in camel case: each one after the first begins with a letter, and
each one between the first and the last has a second character.
-/
structure IsRecoverable (words : List Text) : Prop where
  beginsWithLetter : ∀ w ∈ words.tail, ∃ c ∈ w.head?, c.isLower = true
  twoCharacters : ∀ w ∈ words.tail.dropLast, 2 ≤ w.length

instance (words : List Text) : Decidable (IsRecoverable words) :=
  decidable_of_iff (words.tail.all (fun w => w.head?.any Char.isLower) = true ∧
      ∀ w ∈ words.tail.dropLast, 2 ≤ w.length)
    ⟨fun h => ⟨by simpa [Option.any_eq_true] using h.1, h.2⟩,
      fun h => ⟨by simpa [Option.any_eq_true] using h.beginsWithLetter, h.twoCharacters⟩⟩

theorem isWordChar_of_small {c : Char} (h : c.isLower = true ∨ c.isDigit = true) :
    isWordChar c = true := by
  rcases h with h | h <;> simp [isWordChar, Char.isAlphanum, Char.isAlpha, h]

theorem isUpper_of_small {c : Char} (h : c.isLower = true ∨ c.isDigit = true) :
    c.isUpper = false := by
  rw [← Bool.not_eq_true]
  rcases h with h | h
  · exact Char.not_isUpper_of_isLower h
  · intro hupper
    have halpha : c.isAlpha = true := by simp [Char.isAlpha, hupper]
    rw [isDigit_eq_false_of_isAlpha halpha] at h
    cases h

theorem toLower_of_small {c : Char} (h : c.isLower = true ∨ c.isDigit = true) : c.toLower = c :=
  Char.toLower_eq_of_not_isUpper (by simp [isUpper_of_small h])

theorem isUpper_toUpper_of_small {c : Char} (h : c.isLower = true ∨ c.isDigit = true) :
    c.toUpper.isUpper = c.isLower := by
  rw [Char.isUpper_toUpper_eq_isAlpha, Char.isAlpha, isUpper_of_small h, Bool.false_or]

theorem IsSmallWord.isWordChar {w : Text} (hw : IsSmallWord w) :
    ∀ c ∈ w, Names.isWordChar c = true :=
  fun c hc => isWordChar_of_small (hw.small c hc)

/-- A text in which only the first character may be a capital is one word. -/
theorem isOneWord_cons {c : Char} {rest : Text} (h : ∀ d ∈ rest, d.isUpper = false) :
    IsOneWord (c :: rest) := by
  refine (List.pairwise_cons.2 ⟨?_, ?_⟩).isChain
  · intro d hd
    simp [isBoundary, h d hd]
  · exact List.pairwise_of_forall_mem_list fun _ _ d hd => by simp [isBoundary, h d hd]

theorem IsSmallWord.isOneWord {w : Text} (hw : IsSmallWord w) : IsOneWord w := by
  obtain ⟨c, rest, rfl⟩ := List.exists_cons_of_ne_nil hw.ne_nil
  exact isOneWord_cons fun d hd => isUpper_of_small (hw.small d (List.mem_cons_of_mem c hd))

theorem IsSmallWord.isOneWord_capitalized {w : Text} (hw : IsSmallWord w) :
    IsOneWord (capitalized w) := by
  obtain ⟨c, rest, rfl⟩ := List.exists_cons_of_ne_nil hw.ne_nil
  exact isOneWord_cons fun d hd => isUpper_of_small (hw.small d (List.mem_cons_of_mem c hd))

theorem length_capitalized (w : Text) : (capitalized w).length = w.length := by
  cases w <;> rfl

def EndsSmall (w : Text) : Prop :=
  ∃ c ∈ w.getLast?, c.isLower = true ∨ c.isDigit = true

theorem IsSmallWord.endsSmall {w : Text} (hw : IsSmallWord w) : EndsSmall w :=
  ⟨w.getLast hw.ne_nil, List.getLast?_eq_some_getLast hw.ne_nil,
    hw.small _ (List.getLast_mem hw.ne_nil)⟩

theorem IsSmallWord.endsSmall_capitalized {w : Text} (hw : IsSmallWord w) (h : 2 ≤ w.length) :
    EndsSmall (capitalized w) := by
  match w, h with
  | c :: d :: rest, _ =>
      have hlast : (capitalized (c :: d :: rest)).getLast? = (c :: d :: rest).getLast? := by
        simp only [capitalized, List.getLast?_cons_cons]
      obtain ⟨e, he, hsmall⟩ := hw.endsSmall
      exact ⟨e, hlast ▸ he, hsmall⟩

theorem wordEndsBetween_iff {w v : Text} :
    WordEndsBetween w v ↔ EndsSmall w ∧ ∃ c ∈ v.head?, c.isUpper = true := by
  constructor
  · rintro ⟨hw, hv, h⟩
    rw [isBoundary, Bool.and_eq_true, Bool.or_eq_true] at h
    exact ⟨⟨_, List.getLast?_eq_some_getLast hw, h.1⟩, _, List.head?_eq_some_head hv, h.2⟩
  · rintro ⟨⟨c, hc, hsmall⟩, d, hd, hupper⟩
    obtain ⟨before, rfl⟩ := List.getLast?_eq_some_iff.1 hc
    obtain ⟨after, rfl⟩ := List.head?_eq_some_iff.1 hd
    refine ⟨by simp, by simp, ?_⟩
    simpa [isBoundary, hupper] using hsmall

/-- A word that begins with a capital and does not end with one has two characters. -/
theorem two_le_length {w : Text} (hhead : ∃ c ∈ w.head?, c.isUpper = true) (hend : EndsSmall w) :
    2 ≤ w.length := by
  obtain ⟨c, hc, hupper⟩ := hhead
  obtain ⟨d, hd, hsmall⟩ := hend
  cases w with
  | nil => cases hc
  | cons e rest =>
      cases rest with
      | nil =>
          obtain rfl : e = c := Option.some.inj hc
          obtain rfl : e = d := Option.some.inj hd
          rw [isUpper_of_small hsmall] at hupper
          cases hupper
      | cons => simp

theorem IsSmallWord.head?_capitalized_iff {w : Text} (hw : IsSmallWord w) :
    (∃ c ∈ (capitalized w).head?, c.isUpper = true) ↔ ∃ c ∈ w.head?, c.isLower = true := by
  obtain ⟨c, rest, rfl⟩ := List.exists_cons_of_ne_nil hw.ne_nil
  have hupper := isUpper_toUpper_of_small (hw.small c List.mem_cons_self)
  simp [capitalized, hupper]

theorem isRecoverable_cons_cons {w v u : Text} {more : List Text} (x : Text) :
    IsRecoverable (w :: v :: u :: more) ↔
      (∃ c ∈ v.head?, c.isLower = true) ∧ 2 ≤ v.length ∧ IsRecoverable (x :: u :: more) := by
  constructor
  · intro ⟨hletter, hlength⟩
    obtain ⟨hv, hletters⟩ := List.forall_mem_cons.1 hletter
    obtain ⟨hv', hlengths⟩ := List.forall_mem_cons.1 hlength
    exact ⟨hv, hv', hletters, hlengths⟩
  · intro ⟨hv, hv', hletters, hlengths⟩
    exact ⟨List.forall_mem_cons.2 ⟨hv, hletters⟩, List.forall_mem_cons.2 ⟨hv', hlengths⟩⟩

/-- Between capitalized words letter case shows an end exactly if they can be told apart. -/
theorem isChain_capitalized_iff {w : Text} {words : List Text} (hw : EndsSmall w)
    (hwords : ∀ v ∈ words, IsSmallWord v) :
    (w :: words.map capitalized).IsChain WordEndsBetween ↔ IsRecoverable (w :: words) := by
  induction words generalizing w with
  | nil =>
      have hone : IsRecoverable [w] := ⟨by simp, by simp⟩
      simp [hone]
  | cons v more ih =>
      obtain ⟨hv, hmore⟩ := List.forall_mem_cons.1 hwords
      rw [List.map_cons, List.isChain_cons_cons, wordEndsBetween_iff, hv.head?_capitalized_iff,
        and_iff_right hw]
      cases more with
      | nil =>
          simp only [List.map_nil, List.isChain_singleton, and_true]
          exact ⟨fun h => ⟨by simpa using h, by simp⟩, fun h => h.beginsWithLetter v (by simp)⟩
      | cons u more =>
          rw [isRecoverable_cons_cons (capitalized v)]
          refine and_congr_right fun hletter => ?_
          by_cases hlength : 2 ≤ v.length
          · rw [and_iff_right hlength]
            exact ih (hv.endsSmall_capitalized hlength) hmore
          · -- A word of one letter is all capitals, and no word ends behind a capital.
            refine iff_of_false ?_ fun h => hlength h.1
            rw [List.map_cons, List.isChain_cons_cons, wordEndsBetween_iff]
            rintro ⟨⟨hend, -⟩, -⟩
            have htwo := two_le_length (hv.head?_capitalized_iff.2 hletter) hend
            rw [length_capitalized] at htwo
            exact hlength htwo

/-- Letter case shows the words of a text in camel case exactly if they can be told apart. -/
theorem camelWords_capitalized_iff {w : Text} {words : List Text} (hw : IsSmallWord w)
    (hwords : ∀ v ∈ words, IsSmallWord v) :
    camelWords (w ++ (words.map capitalized).flatten) = w :: words.map capitalized ↔
      IsRecoverable (w :: words) := by
  rw [← isChain_capitalized_iff hw.endsSmall hwords, camelWords_eq_iff]
  have hne : [] ∉ w :: words.map capitalized := by
    intro hmem
    rcases List.mem_cons.1 hmem with h | h
    · exact hw.ne_nil h.symm
    · obtain ⟨v, hv, hcapital⟩ := List.mem_map.1 h
      obtain ⟨c, rest, rfl⟩ := List.exists_cons_of_ne_nil (hwords v hv).ne_nil
      cases hcapital
  have hone : ∀ v ∈ w :: words.map capitalized, IsOneWord v := by
    refine List.forall_mem_cons.2 ⟨hw.isOneWord, List.forall_mem_map.2 fun v hv => ?_⟩
    exact (hwords v hv).isOneWord_capitalized
  constructor
  · intro h
    exact h.2.2.2
  · intro h
    exact ⟨rfl, hne, hone, h⟩

/-! ## Camel case of joined words -/

theorem joinWords_word {w : Text} (hne : w ≠ []) (hw : ∀ c ∈ w, isWordChar c = true)
    (boundary : Bool) (rest : Text) :
    joinWords boundary (w ++ rest) =
      (if boundary then capitalized w else w) ++ joinWords false rest := by
  induction w generalizing boundary with
  | nil => exact absurd rfl hne
  | cons c w ih =>
      obtain ⟨hc, hword⟩ := List.forall_mem_cons.1 hw
      have hrest : joinWords false (w ++ rest) = w ++ joinWords false rest := by
        cases w with
        | nil => rfl
        | cons d w => simpa using ih (List.cons_ne_nil d w) hword false
      rw [List.cons_append, joinWords, if_pos hc, hrest]
      cases boundary <;> rfl

theorem joinWords_separator {c : Char} (hc : isWordChar c = false) (boundary : Bool)
    (rest : Text) : joinWords boundary (c :: rest) = joinWords true rest := by
  simp [joinWords, hc]

theorem joinWords_joinWith {sep : Char} (hsep : isWordChar sep = false) {words : List Text}
    (hwords : ∀ v ∈ words, IsSmallWord v) :
    joinWords true (Text.joinWith [sep] words) = (words.map capitalized).flatten := by
  induction words with
  | nil => rfl
  | cons v more ih =>
      obtain ⟨hv, hmore⟩ := List.forall_mem_cons.1 hwords
      cases more with
      | nil => simpa [joinWords, Text.joinWith] using joinWords_word hv.ne_nil hv.isWordChar true []
      | cons u more =>
          rw [Text.joinWith_cons_cons, List.append_assoc,
            joinWords_word hv.ne_nil hv.isWordChar true, List.singleton_append,
            joinWords_separator hsep, ih hmore]
          rfl

/-- The camel case of words that are joined by a separator. -/
theorem toPropertyName_joinWith {sep : Char} (hsep : isWordChar sep = false) {w : Text}
    {words : List Text} (hw : IsSmallWord w) (hwords : ∀ v ∈ words, IsSmallWord v) :
    toPropertyName (Text.joinWith [sep] (w :: words)) =
      w ++ (words.map capitalized).flatten := by
  have hjoined : joinWords false (Text.joinWith [sep] (w :: words)) =
      w ++ (words.map capitalized).flatten := by
    cases words with
    | nil => simpa [joinWords, Text.joinWith] using joinWords_word hw.ne_nil hw.isWordChar false []
    | cons v more =>
        rw [Text.joinWith_cons_cons, List.append_assoc,
          joinWords_word hw.ne_nil hw.isWordChar false, List.singleton_append,
          joinWords_separator hsep, joinWords_joinWith hsep hwords]
        rfl
  obtain ⟨c, rest, rfl⟩ := List.exists_cons_of_ne_nil hw.ne_nil
  rw [toPropertyName, hjoined, List.cons_append, uncapitalized,
    toLower_of_small (hw.small c List.mem_cons_self)]

end Names

end NgFile
