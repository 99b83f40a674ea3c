import NgFile.Proofs.CamelWords

/-!
# The naming variants of an identifier

The variants are spellings of the same words.  Camel case and Pascal case have the words side
by side, the file name has hyphens and the constant name low lines between them.  No character
of the identifier is lost on the way; what a variant may lose is where a word ends.
-/

namespace NgFile

namespace Names

open Text

/-! ## Letter case of letters and digits -/

theorem small_toLower {c : Char} (h : isWordChar c = true) :
    c.toLower.isLower = true ∨ c.toLower.isDigit = true := by
  rw [Char.isLower_toLower_eq_isAlpha]
  rcases (Bool.or_eq_true _ _).mp h with halpha | hdigit
  · exact .inl halpha
  · exact .inr (by rwa [toLower_of_small (.inr hdigit)])

theorem upper_toUpper {c : Char} (h : isWordChar c = true) :
    c.toUpper.isUpper = true ∨ c.toUpper.isDigit = true := by
  rw [Char.isUpper_toUpper_eq_isAlpha]
  by_cases halpha : c.isAlpha = true
  · exact .inl halpha
  · have hlower : ¬ c.isLower = true := fun hlower => halpha (by simp [Char.isAlpha, hlower])
    rw [Char.toUpper_eq_of_not_isLower hlower]
    exact .inr (((Bool.or_eq_true _ _).mp h).resolve_left halpha)

theorem ne_of_isWordChar {c d : Char} (hc : isWordChar c = true) (hd : isWordChar d = false) :
    c ≠ d := by
  rintro rfl
  rw [hd] at hc
  cases hc

/-! ## The words of the file name and the constant name -/

theorem mem_of_mem_camelWords {t w : Text} (hw : w ∈ camelWords t) {c : Char} (hc : c ∈ w) :
    c ∈ t := by
  have hflat := (camelWords_eq_iff.1 (rfl : camelWords t = camelWords t)).1
  rw [hflat]
  exact List.mem_flatten.2 ⟨w, hw, hc⟩

theorem isAscii_of_isWordChar {t : Text} (h : ∀ c ∈ t, isWordChar c = true) : IsAscii t :=
  fun c hc => toNat_lt_of_isWordChar (h c hc)

theorem dashed_of_not_mem {t : Text} (h : ∀ c ∈ t, c ≠ ' ' ∧ c ≠ '_') : dashed t = t := by
  have hdash : ∀ c ∈ t, dashFor c = c := by
    intro c hc
    simp [dashFor, h c hc]
  cases t with
  | nil => rfl
  | cons c rest =>
      obtain ⟨hc, hrest⟩ := List.forall_mem_cons.1 hdash
      rw [dashed, hc, map_eq_self hrest, ite_self]

/-- The file name has the words of a text without separators in small letters. -/
theorem toFileName_eq_joinWith {t : Text} (ht : ∀ c ∈ t, isWordChar c = true) :
    toFileName t = joinWith ['-'] ((camelWords t).map (List.map Char.toLower)) := by
  have hmem : ∀ c ∈ joinWith ['-'] (camelWords t), c = '-' ∨ isWordChar c = true := by
    intro c hc
    rcases mem_joinWith hc with hsep | ⟨w, hw, hcw⟩
    · exact .inl (List.mem_singleton.1 hsep)
    · exact .inr (ht c (mem_of_mem_camelWords hw hcw))
  have hascii : IsAscii (joinWith ['-'] (camelWords t)) := by
    intro c hc
    rcases hmem c hc with rfl | hword
    · decide
    · exact toNat_lt_of_isWordChar hword
  rw [toFileName, hyphenated_eq_joinWith, lowered_ascii hascii, dashed_of_not_mem, map_joinWith]
  · rfl
  · refine List.forall_mem_map.2 fun c hc => ?_
    rcases hmem c hc with rfl | hword
    · decide
    · have hlower := (isWordChar_case hword).2
      exact ⟨ne_of_isWordChar hlower (by decide), ne_of_isWordChar hlower (by decide)⟩

def constantSource (identifier : Text) : Text :=
  toPropertyName (if isRaised identifier then lowered identifier else identifier)

/-- The constant name has the words of the camel case in capitals. -/
theorem toConstantName_eq_joinWith (identifier : Text) :
    toConstantName identifier =
      joinWith ['_'] ((camelWords (constantSource identifier)).map raisedAscii) := by
  have hword := isWordChar_toPropertyName
    (if isRaised identifier then lowered identifier else identifier)
  have hmap : ∀ w ∈ camelWords (constantSource identifier),
      ((w.map Char.toLower).map fun c => if isWordChar c then c else '_').map Char.toUpper =
        raisedAscii w := by
    intro w hw
    rw [List.map_map, List.map_map]
    refine List.map_congr_left fun c hc => ?_
    have hc := hword c (mem_of_mem_camelWords hw hc)
    simp only [Function.comp_apply, (isWordChar_case hc).2, if_true,
      Char.toUpper_toLower_eq_toUpper]
  rw [toConstantName, raisedAscii, toFileName_eq_joinWith hword, map_joinWith, map_joinWith,
    List.map_map, List.map_map, List.map_map]
  exact congrArg (joinWith ['_']) (List.map_congr_left hmap)

/-! ## Words of a kebab-case identifier -/

theorem joinWith_inj {sep : Char} {words words' : List Text} (hne : words ≠ [])
    (hne' : words' ≠ []) (hsep : ∀ w ∈ words, sep ∉ w) (hsep' : ∀ w ∈ words', sep ∉ w) :
    joinWith [sep] words = joinWith [sep] words' ↔ words = words' := by
  constructor
  · intro h
    rw [← pieces_joinWith hne hsep, h, pieces_joinWith hne' hsep']
  · intro h
    rw [h]

/-- Changing the characters of both does not make two ways to cut one text into words equal. -/
theorem map_camelWords_flatten_iff (f : Char → Char) {words : List Text} :
    (camelWords words.flatten).map (List.map f) = words.map (List.map f) ↔
      camelWords words.flatten = words := by
  constructor
  · intro h
    have hlengths := congrArg (List.map List.length) h
    simp only [List.map_map, Function.comp_def, List.length_map] at hlengths
    exact List.eq_iff_flatten_eq.2 ⟨List.flatten_splitBy _ _, hlengths⟩
  · intro h
    rw [h]

theorem not_mem_map_of_isWordChar {sep : Char} (hsep : isWordChar sep = false) {f : Char → Char}
    (hf : ∀ c, isWordChar c = true → isWordChar (f c) = true) {words : List Text}
    (hwords : ∀ w ∈ words, ∀ c ∈ w, isWordChar c = true) :
    ∀ w ∈ words.map (List.map f), sep ∉ w := by
  refine List.forall_mem_map.2 fun w hw hmem => ?_
  obtain ⟨c, hc, rfl⟩ := List.mem_map.1 hmem
  rw [hf c (hwords w hw c hc)] at hsep
  cases hsep

section Kebab

variable {w : Text} {words : List Text}

theorem map_capitalized_of_eq {f : Char → Char} (hf : ∀ c : Char, f c.toUpper = f c)
    (words : List Text) :
    (words.map capitalized).map (List.map f) = words.map (List.map f) := by
  rw [List.map_map]
  refine List.map_congr_left fun v _ => ?_
  cases v with
  | nil => rfl
  | cons c rest => rw [Function.comp_apply, capitalized, List.map_cons, List.map_cons, hf]

theorem map_toLower_small (hwords : ∀ v ∈ words, IsSmallWord v) :
    words.map (List.map Char.toLower) = words :=
  map_words_eq_self fun v hv c hc => toLower_of_small ((hwords v hv).small c hc)

/--
A spelling of the words that letter case shows in a text in camel case, with a separator between
them, is the same spelling of its own words exactly if these can be told apart.
-/
theorem joinWith_camelWords_iff (sep : Char) (f : Char → Char) (hsep : isWordChar sep = false)
    (hword : ∀ c, isWordChar c = true → isWordChar (f c) = true)
    (hf : ∀ c : Char, f c.toUpper = f c) (hw : IsSmallWord w) (hwords : ∀ v ∈ words, IsSmallWord v) :
    joinWith [sep] ((camelWords (w ++ (words.map capitalized).flatten)).map (List.map f)) =
        joinWith [sep] ((w :: words).map (List.map f)) ↔
      IsRecoverable (w :: words) := by
  have hcamel : ∀ c ∈ w ++ (words.map capitalized).flatten, isWordChar c = true := by
    refine List.forall_mem_append.2 ⟨hw.isWordChar, fun c hc => ?_⟩
    obtain ⟨u, hu, hcu⟩ := List.mem_flatten.1 hc
    obtain ⟨v, hv, rfl⟩ := List.mem_map.1 hu
    exact isWordChar_capitalized (hwords v hv).isWordChar c hcu
  have hne : camelWords (w ++ (words.map capitalized).flatten) ≠ [] :=
    List.splitBy_ne_nil.2 (List.append_ne_nil_of_left_ne_nil hw.ne_nil _)
  have hall : ∀ v ∈ w :: words, ∀ c ∈ v, isWordChar c = true :=
    List.forall_mem_cons.2 ⟨hw.isWordChar, fun v hv => (hwords v hv).isWordChar⟩
  rw [joinWith_inj (by simpa using hne) (by simp)
    (not_mem_map_of_isWordChar hsep hword fun v hv c hc => hcamel c (mem_of_mem_camelWords hv hc))
    (not_mem_map_of_isWordChar hsep hword hall)]
  rw [List.map_cons, ← map_capitalized_of_eq hf words, ← List.map_cons, ← List.flatten_cons,
    map_camelWords_flatten_iff, List.flatten_cons, camelWords_capitalized_iff hw hwords]

end Kebab

/-- Without capitals there is nothing to hyphenate. -/
theorem hyphenated_of_no_upper {t : Text} (h : ∀ c ∈ t, c.isUpper = false) : hyphenated t = t := by
  induction t using hyphenated.induct with
  | case1 => rfl
  | case2 c => rfl
  | case3 c d rest hboundary ih =>
      simp [h d (by simp)] at hboundary
  | case4 c d rest hboundary ih =>
      rw [hyphenated, if_neg hboundary, ih fun e he => h e (List.mem_cons_of_mem c he)]

theorem map_toLower_of_no_upper {t : Text} (h : ∀ c ∈ t, c.isUpper = false) :
    t.map Char.toLower = t :=
  map_eq_self fun c hc => Char.toLower_eq_of_not_isUpper (by simp [h c hc])

theorem toFileName_of_no_upper {t : Text} (hascii : IsAscii t)
    (h : ∀ c ∈ t, c.isUpper = false) : toFileName t = dashed t := by
  rw [toFileName, hyphenated_of_no_upper h, lowered_ascii hascii, map_toLower_of_no_upper h]

/-- A character of a kebab-case identifier: a small letter, a digit or a hyphen. -/
theorem mem_kebab_cases {words : List Text} (hwords : ∀ w ∈ words, IsSmallWord w) {c : Char}
    (hc : c ∈ joinWith ['-'] words) :
    c.toNat < 128 ∧ c.isUpper = false ∧ (c ≠ ' ' ∧ c ≠ '_') := by
  rcases mem_joinWith hc with hsep | ⟨w, hw, hcw⟩
  · rw [List.mem_singleton.1 hsep]
    decide
  · have hsmall := (hwords w hw).small c hcw
    have hword := isWordChar_of_small hsmall
    exact ⟨toNat_lt_of_isWordChar hword, isUpper_of_small hsmall,
      ne_of_isWordChar hword (by decide), ne_of_isWordChar hword (by decide)⟩

/-- Low lines in the places of the hyphens of a kebab-case identifier. -/
theorem map_low_line {words : List Text} (hwords : ∀ w ∈ words, IsSmallWord w) :
    (joinWith ['-'] words).map (fun c => if c = '-' then '_' else c) = joinWith ['_'] words := by
  have hsame : words.map (List.map fun c => if c = '-' then '_' else c) = words := by
    refine map_words_eq_self fun w hw c hc => ?_
    exact if_neg (ne_of_isWordChar ((hwords w hw).isWordChar c hc) (by decide))
  rw [map_joinWith, hsame]
  rfl

/--
A kebab-case identifier is its own file name.  Its camel case gives it back, and its constant
name has low lines in the places of its hyphens, exactly if its words can be told apart.
-/
theorem kebab_words_found_iff {words : List Text} (hne : words ≠ [])
    (hwords : ∀ w ∈ words, IsSmallWord w) :
    let identifier := joinWith ['-'] words
    let names := ofIdentifier identifier
    names.fileName = identifier ∧
      (toFileName names.propertyName = identifier ↔ IsRecoverable words) ∧
      (names.constantName =
          raisedAscii (identifier.map fun c => if c = '-' then '_' else c) ↔
        IsRecoverable words) := by
  intro identifier names
  have hascii : IsAscii identifier := fun c hc => (mem_kebab_cases hwords hc).1
  have hlower : ∀ c ∈ identifier, c.isUpper = false := fun c hc => (mem_kebab_cases hwords hc).2.1
  obtain ⟨w, more, rfl⟩ := List.exists_cons_of_ne_nil hne
  obtain ⟨hw, hmore⟩ := List.forall_mem_cons.1 hwords
  have hproperty : toPropertyName identifier = w ++ (more.map capitalized).flatten :=
    toPropertyName_joinWith (by decide) hw hmore
  have hsource : constantSource identifier = toPropertyName identifier := by
    rw [constantSource, lowered_ascii hascii, map_toLower_of_no_upper hlower, ite_self]
  refine ⟨?_, ?_, ?_⟩
  · show toFileName identifier = identifier
    rw [toFileName_of_no_upper hascii hlower,
      dashed_of_not_mem fun c hc => (mem_kebab_cases hwords hc).2.2]
  · have hfile := joinWith_camelWords_iff '-' Char.toLower (by decide)
      (fun c hc => (isWordChar_case hc).2) Char.toLower_toUpper_eq_toLower hw hmore
    rw [map_toLower_small hwords] at hfile
    show toFileName (toPropertyName identifier) = identifier ↔ _
    rw [toFileName_eq_joinWith (isWordChar_toPropertyName identifier), hproperty, hfile]
  · have hconstant := joinWith_camelWords_iff '_' Char.toUpper (by decide)
      (fun c hc => (isWordChar_case hc).1) Char.toUpper_toUpper_eq_toUpper hw hmore
    show toConstantName identifier = _ ↔ _
    rw [toConstantName_eq_joinWith, hsource, hproperty, map_low_line hwords, raisedAscii,
      map_joinWith, ← hconstant]
    rfl

/-- Of two identifiers the second has a word of one letter in its middle, and loses its end. -/
theorem kebab_words_found_iff_pair :
    let words : List Text := ["my", "ui", "d2"]
    let unclear : List Text := ["my", "x", "card"]
    (words ≠ [] ∧ (∀ w ∈ words, IsSmallWord w) ∧ IsRecoverable words ∧
      toFileName (ofIdentifier (joinWith ['-'] words)).propertyName = joinWith ['-'] words ∧
      (ofIdentifier (joinWith ['-'] words)).constantName = "MY_UI_D2") ∧
    (unclear ≠ [] ∧ (∀ w ∈ unclear, IsSmallWord w) ∧ ¬ IsRecoverable unclear ∧
      toFileName (ofIdentifier (joinWith ['-'] unclear)).propertyName ≠ joinWith ['-'] unclear) := by
  intro words unclear
  have hwords : ∀ w ∈ words, IsSmallWord w := by decide
  have hunclear : ∀ w ∈ unclear, IsSmallWord w := by decide
  have hfound : IsRecoverable words := by decide
  have hlost : ¬ IsRecoverable unclear := by decide
  have h := kebab_words_found_iff (by decide) hwords
  have h' := kebab_words_found_iff (by decide) hunclear
  refine ⟨⟨by decide, hwords, hfound, h.2.1.2 hfound, ?_⟩, by decide, hunclear, hlost, ?_⟩
  · exact (h.2.2.2 hfound).trans (by decide)
  · exact fun heq => hlost (h'.2.1.1 heq)

/-! ## Names of names -/

theorem isRecoverable_of_isChain {words : List Text} (h : words.IsChain WordEndsBetween) :
    IsRecoverable (words.map (List.map Char.toLower)) := by
  have hletter : ∀ {w v : Text}, WordEndsBetween w v →
      ∃ c ∈ (v.map Char.toLower).head?, c.isLower = true := by
    intro w v hends
    obtain ⟨c, hc, hupper⟩ := (wordEndsBetween_iff.1 hends).2
    rw [List.head?_map, hc]
    exact ⟨c.toLower, rfl, by simp [Char.isAlpha, hupper]⟩
  induction words with
  | nil => exact ⟨by simp, by simp⟩
  | cons w more ih =>
      cases more with
      | nil => exact ⟨by simp, by simp⟩
      | cons v more =>
          obtain ⟨hwv, hmore⟩ := List.isChain_cons_cons.1 h
          cases more with
          | nil => exact ⟨by simpa using hletter hwv, by simp⟩
          | cons u more =>
              have hvu := (List.isChain_cons_cons.1 hmore).1
              have hlength : 2 ≤ (v.map Char.toLower).length := by
                rw [List.length_map]
                exact two_le_length (wordEndsBetween_iff.1 hwv).2 (wordEndsBetween_iff.1 hvu).1
              exact (isRecoverable_cons_cons _).2 ⟨hletter hwv, hlength, ih hmore⟩

/-- A constant name is made of words that can be told apart. -/
theorem exists_words_of_constantName (identifier : Text) :
    ∃ words, (∀ w ∈ words, IsSmallWord w) ∧ IsRecoverable words ∧
      toConstantName identifier = joinWith ['_'] (words.map raisedAscii) := by
  obtain ⟨hflat, hnil, -, hends⟩ :=
    camelWords_eq_iff.1 (rfl : camelWords (constantSource identifier) = _)
  have hword : ∀ w ∈ camelWords (constantSource identifier), ∀ c ∈ w, isWordChar c = true :=
    fun w hw c hc => isWordChar_toPropertyName _ c (mem_of_mem_camelWords hw hc)
  refine ⟨(camelWords (constantSource identifier)).map (List.map Char.toLower),
    List.forall_mem_map.2 fun w hw => ⟨?_, ?_⟩, isRecoverable_of_isChain hends, ?_⟩
  · rw [ne_eq, List.map_eq_nil_iff]
    rintro rfl
    exact hnil hw
  · exact List.forall_mem_map.2 fun c hc => small_toLower (hword w hw c hc)
  · rw [toConstantName_eq_joinWith, List.map_map]
    refine congrArg (joinWith ['_']) (List.map_congr_left fun w hw => ?_)
    rw [Function.comp_apply, raisedAscii, raisedAscii, List.map_map]
    exact List.map_congr_left fun c _ => (Char.toUpper_toLower_eq_toUpper c).symm

theorem mem_raised_cases {words : List Text} (hwords : ∀ w ∈ words, IsSmallWord w) {c : Char}
    (hc : c ∈ joinWith ['_'] (words.map raisedAscii)) : c.toNat < 128 ∧ c.isLower = false := by
  rcases mem_joinWith hc with hsep | ⟨v, hv, hcv⟩
  · rw [List.mem_singleton.1 hsep]
    decide
  · obtain ⟨w, hw, rfl⟩ := List.mem_map.1 hv
    obtain ⟨d, hd, rfl⟩ := List.mem_map.1 hcv
    have hword := (hwords w hw).isWordChar d hd
    exact ⟨toNat_lt_of_isWordChar (isWordChar_case hword).1, Char.isLower_toUpper_eq_false d⟩

theorem lowered_raised {words : List Text} (hwords : ∀ w ∈ words, IsSmallWord w) :
    lowered (joinWith ['_'] (words.map raisedAscii)) = joinWith ['_'] words := by
  have hsame : (words.map raisedAscii).map (List.map Char.toLower) = words := by
    rw [List.map_map]
    refine map_eq_self fun w hw => ?_
    rw [Function.comp_apply, raisedAscii, List.map_map]
    refine map_eq_self fun c hc => ?_
    rw [Function.comp_apply, Char.toLower_toUpper_eq_toLower]
    exact toLower_of_small ((hwords w hw).small c hc)
  rw [lowered_ascii fun c hc => (mem_raised_cases hwords hc).1, map_joinWith, hsame]
  rfl

/-- Words that can be told apart make a constant name of their own. -/
theorem toConstantName_of_isRecoverable {words : List Text} (hwords : ∀ w ∈ words, IsSmallWord w)
    (h : IsRecoverable words) :
    toConstantName (joinWith ['_'] (words.map raisedAscii)) =
      joinWith ['_'] (words.map raisedAscii) := by
  cases words with
  | nil => rfl
  | cons w more =>
      obtain ⟨hw, hmore⟩ := List.forall_mem_cons.1 hwords
      have hraised : isRaised (joinWith ['_'] ((w :: more).map raisedAscii)) = true :=
        isRaised_ascii (fun c hc => (mem_raised_cases hwords hc).1)
          fun c hc => (mem_raised_cases hwords hc).2
      have hsource : constantSource (joinWith ['_'] ((w :: more).map raisedAscii)) =
          w ++ (more.map capitalized).flatten := by
        rw [constantSource, if_pos hraised, lowered_raised hwords]
        exact toPropertyName_joinWith (by decide) hw hmore
      rw [toConstantName_eq_joinWith, hsource, (camelWords_capitalized_iff hw hmore).2 h,
        List.map_cons, List.map_cons]
      refine congrArg (fun v => joinWith ['_'] (raisedAscii w :: v)) ?_
      exact map_capitalized_of_eq Char.toUpper_toUpper_eq_toUpper more

theorem joinWords_of_isWordChar {t : Text} (ht : ∀ c ∈ t, isWordChar c = true) :
    joinWords false t = t := by
  cases t with
  | nil => rfl
  | cons c rest => simpa [joinWords] using joinWords_word (List.cons_ne_nil c rest) ht false []

theorem toPropertyName_of_isWordChar {t : Text} (ht : ∀ c ∈ t, isWordChar c = true) :
    toPropertyName t = uncapitalized t := by
  rw [toPropertyName, joinWords_of_isWordChar ht]

/-- Camel case begins with a small letter or a digit. -/
theorem small_head_propertyName (identifier : Text) :
    ∀ c ∈ (toPropertyName identifier).head?, c.isLower = true ∨ c.isDigit = true := by
  have hword := isWordChar_joinWords false identifier
  rw [toPropertyName]
  cases hjoined : joinWords false identifier with
  | nil =>
      intro d hd
      cases hd
  | cons c rest =>
      rw [hjoined] at hword
      intro d hd
      obtain rfl : c.toLower = d := Option.some.inj hd
      exact small_toLower (hword c List.mem_cons_self)

theorem uncapitalized_of_small {t : Text}
    (h : ∀ c ∈ t.head?, c.isLower = true ∨ c.isDigit = true) :
    uncapitalized t = t ∧ uncapitalized (capitalized t) = t := by
  cases t with
  | nil => exact ⟨rfl, rfl⟩
  | cons c rest =>
      have hlower : c.toLower = c := toLower_of_small (h c rfl)
      have hcapital : c.toUpper.toLower = c := (Char.toLower_toUpper_eq_toLower c).trans hlower
      exact ⟨congrArg (· :: rest) hlower, congrArg (· :: rest) hcapital⟩

theorem dashed_dashed (t : Text) : dashed (dashed t) = dashed t := by
  have hdash : ∀ c, dashFor (dashFor c) = dashFor c := by
    intro c
    by_cases h : c = ' ' ∨ c = '_' <;> simp [dashFor, h]
  cases t with
  | nil => rfl
  | cons c rest =>
      have hrest : (rest.map dashFor).map dashFor = rest.map dashFor := by
        rw [List.map_map]
        exact List.map_congr_left fun d _ => hdash d
      by_cases h : c = '_' <;> simp [dashed, h, hrest, hdash]

theorem mem_dashed {t : Text} {d : Char} (hd : d ∈ dashed t) : d ∈ t ∨ d = '-' := by
  have hdash : ∀ c, dashFor c = c ∨ dashFor c = '-' := by
    intro c
    by_cases h : c = ' ' ∨ c = '_' <;> simp [dashFor, h]
  cases t with
  | nil => cases hd
  | cons c rest =>
      rw [dashed, List.mem_cons, List.mem_map] at hd
      obtain rfl | ⟨e, he, rfl⟩ := hd
      · by_cases hc : c = '_'
        · simp [hc]
        · rw [if_neg hc]
          exact (hdash c).imp_left fun h => List.mem_cons.2 (.inl h)
      · refine (hdash e).imp_left fun h => ?_
        rw [h]
        exact List.mem_cons_of_mem c he

theorem isAscii_hyphenated {t : Text} (h : IsAscii t) : IsAscii (hyphenated t) := by
  intro c hc
  by_cases hhyphen : c = '-'
  · rw [hhyphen]
    decide
  · exact h c ((mem_hyphenated_iff hhyphen t).1 hc)

/-- The file name of an ASCII identifier has no capitals. -/
theorem mem_toFileName_cases {identifier : Text} (h : IsAscii identifier) {d : Char}
    (hd : d ∈ toFileName identifier) : d.toNat < 128 ∧ d.isUpper = false := by
  have hhyphenated := isAscii_hyphenated h
  rw [toFileName, lowered_ascii hhyphenated] at hd
  rcases mem_dashed hd with hlowered | rfl
  · obtain ⟨c, hc, rfl⟩ := List.mem_map.1 hlowered
    refine ⟨?_, Char.isUpper_toLower_eq_false c⟩
    by_cases hupper : c.isUpper = true
    · have hword : isWordChar c = true := by simp [isWordChar, Char.isAlphanum, Char.isAlpha, hupper]
      exact toNat_lt_of_isWordChar (isWordChar_case hword).2
    · rw [Char.toLower_eq_of_not_isUpper hupper]
      exact hhyphenated c hc
  · decide

/--
A variant is its own variant of the same kind: in camel case, in Pascal case, as a constant
name, and for an ASCII identifier as a file name, too.
-/
theorem variants_stable (identifier : Text) :
    let names := ofIdentifier identifier
    (ofIdentifier names.propertyName).propertyName = names.propertyName ∧
      (ofIdentifier names.className).propertyName = names.propertyName ∧
      (ofIdentifier names.className).className = names.className ∧
      (ofIdentifier names.constantName).constantName = names.constantName ∧
      (IsAscii identifier → (ofIdentifier names.fileName).fileName = names.fileName) := by
  intro names
  have hword : ∀ c ∈ names.propertyName, isWordChar c = true := isWordChar_toPropertyName identifier
  obtain ⟨hproperty, hclass⟩ := uncapitalized_of_small (small_head_propertyName identifier)
  have hpascal : toPropertyName names.className = names.propertyName :=
    (toPropertyName_of_isWordChar (isWordChar_capitalized hword)).trans hclass
  refine ⟨?_, hpascal, congrArg capitalized hpascal, ?_, ?_⟩
  · exact (toPropertyName_of_isWordChar hword).trans hproperty
  · obtain ⟨words, hwords, hrecoverable, hname⟩ := exists_words_of_constantName identifier
    show toConstantName (toConstantName identifier) = toConstantName identifier
    rw [hname, toConstantName_of_isRecoverable hwords hrecoverable]
  · intro hascii
    have hlower := fun d => mem_toFileName_cases hascii (d := d)
    have hfile := toFileName_of_no_upper (fun d hd => (hlower d hd).1) fun d hd => (hlower d hd).2
    exact hfile.trans (dashed_dashed _)

/-- An identifier of several spellings whose file name keeps a low line in front. -/
theorem variants_stable_mixed :
    let identifier : Text := "_fooBar baz_2"
    IsAscii identifier ∧ (ofIdentifier identifier).fileName = "_foo-bar-baz-2" ∧
      (ofIdentifier (ofIdentifier identifier).fileName).fileName = "_foo-bar-baz-2" ∧
      (ofIdentifier (ofIdentifier identifier).constantName).constantName = "FOO_BAR_BAZ2" := by
  intro identifier
  have hascii : IsAscii identifier := by decide
  have hfile : (ofIdentifier identifier).fileName = ("_foo-bar-baz-2" : Text) := by decide
  obtain ⟨-, -, -, hconstant, hstable⟩ := variants_stable identifier
  exact ⟨hascii, hfile, (hstable hascii).trans hfile, hconstant.trans (by decide)⟩

end Names

end NgFile
