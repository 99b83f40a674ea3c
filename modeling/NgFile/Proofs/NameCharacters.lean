import NgFile.Proofs.NameVariants

/-!
# What names are made of

Each naming variant has an alphabet of its own, and the constant name a form of its own, too:
words of capitals and digits with single low lines between them.  What a variant changes is the
case of letters and what stands between them, so that the letters and digits of an ASCII
identifier are found in all its variants, in their order.
-/

namespace NgFile

namespace Names

open Text

def letters (t : Text) : Text :=
  (t.filter isWordChar).map Char.toLower

/-- Two characters that stand for the same letter or digit, or for none. -/
def SameLetter (c d : Char) : Prop :=
  letters [c] = letters [d]

theorem letters_cons (c : Char) (t : Text) : letters (c :: t) = letters [c] ++ letters t := by
  unfold letters
  rw [← List.map_append, ← List.filter_append, List.singleton_append]

theorem letters_map {f : Char → Char} (h : ∀ c, SameLetter (f c) c) (t : Text) :
    letters (t.map f) = letters t := by
  induction t with
  | nil => rfl
  | cons c rest ih => rw [List.map_cons, letters_cons, ih, h c, ← letters_cons]

theorem isWordChar_toLower (c : Char) : isWordChar c.toLower = isWordChar c := by
  by_cases hc : isWordChar c = true
  · rw [hc, (isWordChar_case hc).2]
  · have hupper : ¬ c.isUpper = true := by
      intro hupper
      exact hc (by simp [isWordChar, Char.isAlphanum, Char.isAlpha, hupper])
    rw [Char.toLower_eq_of_not_isUpper hupper]

theorem isWordChar_toUpper (c : Char) : isWordChar c.toUpper = isWordChar c := by
  rw [← isWordChar_toLower c.toUpper, Char.toLower_toUpper_eq_toLower, isWordChar_toLower]

theorem sameLetter_toLower (c : Char) : SameLetter c.toLower c := by
  unfold SameLetter letters
  by_cases hc : isWordChar c = true <;> simp [hc, isWordChar_toLower]

theorem sameLetter_toUpper (c : Char) : SameLetter c.toUpper c := by
  unfold SameLetter letters
  by_cases hc : isWordChar c = true <;> simp [hc, isWordChar_toUpper]

theorem sameLetter_dashFor (c : Char) : SameLetter (dashFor c) c := by
  by_cases h : c = ' ' ∨ c = '_'
  · have hdash : dashFor c = '-' := if_pos (by simpa using h)
    rw [hdash]
    rcases h with rfl | rfl <;> rfl
  · have hsame : dashFor c = c := if_neg (by simpa using h)
    rw [hsame, SameLetter]

theorem letters_hyphenated (t : Text) : letters (hyphenated t) = letters t := by
  induction t using hyphenated.induct with
  | case1 => rfl
  | case2 c => rfl
  | case3 c d rest h ih =>
      have hnone : letters ['-'] = [] := rfl
      rw [hyphenated, if_pos h, letters_cons, letters_cons '-', ih, hnone, List.nil_append,
        ← letters_cons]
  | case4 c d rest h ih => rw [hyphenated, if_neg h, letters_cons, ih, ← letters_cons]

theorem letters_dashed (t : Text) : letters (dashed t) = letters t := by
  cases t with
  | nil => rfl
  | cons c rest =>
      have hhead : SameLetter (if c = '_' then c else dashFor c) c := by
        split
        · rfl
        · exact sameLetter_dashFor c
      rw [dashed, letters_cons, letters_map sameLetter_dashFor, hhead, ← letters_cons]

theorem letters_toFileName {t : Text} (h : IsAscii t) : letters (toFileName t) = letters t := by
  rw [toFileName, letters_dashed, lowered_ascii (isAscii_hyphenated h),
    letters_map sameLetter_toLower, letters_hyphenated]

theorem letters_joinWords (boundary : Bool) (t : Text) :
    letters (joinWords boundary t) = letters t := by
  induction t generalizing boundary with
  | nil => rfl
  | cons c rest ih =>
      rw [joinWords, letters_cons c]
      split
      · rename_i hc
        have hhead : SameLetter (if boundary then c.toUpper else c) c := by
          split
          · exact sameLetter_toUpper c
          · rfl
        rw [letters_cons, hhead, ih]
      · rename_i hc
        have hnone : letters [c] = [] := by simp [letters, hc]
        rw [hnone, ih, List.nil_append]

theorem letters_toPropertyName (t : Text) : letters (toPropertyName t) = letters t := by
  rw [toPropertyName, ← letters_joinWords false t]
  cases joinWords false t with
  | nil => rfl
  | cons c rest => rw [uncapitalized, letters_cons, sameLetter_toLower c, ← letters_cons]

theorem letters_capitalized (t : Text) : letters (capitalized t) = letters t := by
  cases t with
  | nil => rfl
  | cons c rest => rw [capitalized, letters_cons, sameLetter_toUpper c, ← letters_cons]

theorem letters_toConstantName {t : Text} (h : IsAscii t) :
    letters (toConstantName t) = letters t := by
  have hsource : letters (constantSource t) = letters t := by
    rw [constantSource, letters_toPropertyName]
    split
    · rw [lowered_ascii h, letters_map sameLetter_toLower]
    · rfl
  have hword := isWordChar_toPropertyName (if isRaised t then lowered t else t)
  have hascii : IsAscii (constantSource t) := isAscii_of_isWordChar hword
  have hlow : ∀ c, SameLetter (if isWordChar c then c else '_') c := by
    intro c
    by_cases hc : isWordChar c = true
    · rw [if_pos hc, SameLetter]
    · have hnone : letters [c] = [] := by simp [letters, hc]
      rw [if_neg hc, SameLetter, hnone]
      rfl
  rw [toConstantName, raisedAscii, letters_map sameLetter_toUpper, letters_map hlow]
  exact (letters_toFileName hascii).trans hsource

theorem not_isLower_head_capitalized (t : Text) :
    ∀ c ∈ (capitalized t).head?, c.isLower = false := by
  cases t with
  | nil => nofun
  | cons c rest =>
      intro d hd
      obtain rfl : c.toUpper = d := Option.some.inj hd
      exact Char.isLower_toUpper_eq_false c

/--
Camel case and Pascal case are letters and digits alone and begin with the right case; a constant
name is made of words of capitals and digits with low lines between them, the later ones with a
letter in front.  Of an ASCII identifier no variant loses, adds or moves a letter or a digit.
-/
theorem variants_characters (identifier : Text) :
    let names := ofIdentifier identifier
    ((∀ c ∈ names.propertyName, isWordChar c = true) ∧
        ∀ c ∈ names.propertyName.head?, c.isUpper = false) ∧
      ((∀ c ∈ names.className, isWordChar c = true) ∧
        ∀ c ∈ names.className.head?, c.isLower = false) ∧
      (∃ words, names.constantName = joinWith ['_'] words ∧
        (∀ w ∈ words, w ≠ [] ∧ ∀ c ∈ w, c.isUpper = true ∨ c.isDigit = true) ∧
        ∀ w ∈ words.tail, ∃ c ∈ w.head?, c.isUpper = true) ∧
      (IsAscii identifier →
        letters names.fileName = letters identifier ∧
          letters names.propertyName = letters identifier ∧
          letters names.className = letters identifier ∧
          letters names.constantName = letters identifier) := by
  intro names
  have hword : ∀ c ∈ names.propertyName, isWordChar c = true := isWordChar_toPropertyName identifier
  refine ⟨⟨hword, ?_⟩, ⟨isWordChar_capitalized hword, ?_⟩, ?_, ?_⟩
  · exact fun c hc => isUpper_of_small (small_head_propertyName identifier c hc)
  · exact not_isLower_head_capitalized names.propertyName
  · obtain ⟨words, hwords, hrecoverable, hname⟩ := exists_words_of_constantName identifier
    refine ⟨words.map raisedAscii, hname, List.forall_mem_map.2 fun w hw => ⟨?_, ?_⟩, ?_⟩
    · simpa [raisedAscii] using (hwords w hw).ne_nil
    · exact List.forall_mem_map.2 fun c hc => upper_toUpper ((hwords w hw).isWordChar c hc)
    · rw [← List.map_tail]
      refine List.forall_mem_map.2 fun w hw => ?_
      obtain ⟨c, hc, hlower⟩ := hrecoverable.beginsWithLetter w hw
      rw [raisedAscii, List.head?_map, hc]
      exact ⟨c.toUpper, rfl, (isUpper_toUpper_of_small (.inl hlower)).trans hlower⟩
  · intro hascii
    refine ⟨letters_toFileName hascii, letters_toPropertyName identifier, ?_,
      letters_toConstantName hascii⟩
    exact (letters_capitalized names.propertyName).trans (letters_toPropertyName identifier)

/-- An identifier with a word that begins with a digit, and all its variants. -/
theorem variants_characters_digits :
    let identifier : Text := "-user 2ndCard__x"
    IsAscii identifier ∧ letters identifier = "user2ndcardx" ∧
      (ofIdentifier identifier).constantName = "USER2ND_CARD_X" ∧
      letters (ofIdentifier identifier).fileName = "user2ndcardx" ∧
      letters (ofIdentifier identifier).constantName = "user2ndcardx" := by
  intro identifier
  have hascii : IsAscii identifier := by decide
  have hletters : letters identifier = ("user2ndcardx" : Text) := by decide
  obtain ⟨-, -, -, hkept⟩ := variants_characters identifier
  obtain ⟨hfile, -, -, hconstant⟩ := hkept hascii
  exact ⟨hascii, hletters, by decide, hfile.trans hletters, hconstant.trans hletters⟩

end Names

end NgFile
