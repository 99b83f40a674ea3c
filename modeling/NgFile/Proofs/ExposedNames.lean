import NgFile.Proofs.ListedValues
import NgFile.Proofs.MergeOrder

/-!
# Names to expose

The names to expose are cut out of the text of a list at its commas, while the components in use
are found by reading their list.  Both give the names that are listed if only blanks stand between
these, in whatever layout.  With a comment in the list, or with a space of no width, the names
that are cut out are not the ones that are listed.
-/

namespace NgFile

open Syntax ScriptItem

/-! ## Characters of words -/

def isNamePadding (c : Char) : Bool :=
  c == '[' || c == ']' || Text.isBlank c

/-- The code points of the marks in a list, of blanks, and of the marks that lead a comment. -/
def listPoints : List Nat :=
  [0x2C, 0x5B, 0x5D] ++ Lexeme.separatorPoints

theorem toNat_not_mem_listPoints {c : Char} (h : spellsWord c = true) :
    c.toNat ∉ listPoints := by
  have hpoints : ∀ n ∈ listPoints, spellsWord (Char.ofNat n) = false := by decide +kernel
  intro hmem
  have hfalse := hpoints _ hmem
  rw [Char.ofNat_toNat, h] at hfalse
  cases hfalse

/-- A word is neither cut nor trimmed, and has no slash and no space of no width in it. -/
theorem of_spellsWord {c : Char} (h : spellsWord c = true) :
    c ≠ ',' ∧ isNamePadding c = false ∧ c ≠ '/' ∧ c.toNat ≠ 0x200B ∧ c.toNat ≠ 0xFEFF := by
  have hpoints := toNat_not_mem_listPoints h
  have hne (d : Char) (hd : d.toNat ∈ listPoints) : c ≠ d := fun heq => hpoints (heq ▸ hd)
  have hblank : Text.isBlank c = false := by
    simp only [listPoints, Lexeme.separatorPoints, List.mem_append, List.mem_cons,
      List.mem_range'_1, List.not_mem_nil, or_false, not_or, not_and] at hpoints
    simp only [Text.isBlank, Bool.or_eq_false_iff, Bool.and_eq_false_iff, beq_eq_false_iff_ne,
      decide_eq_false_iff_not]
    omega
  refine ⟨hne ',' (by decide), ?_, hne '/' (by decide), ?_, ?_⟩
  · simp [isNamePadding, hne '[' (by decide), hne ']' (by decide), hblank]
  · exact fun heq => hpoints (heq ▸ by decide)
  · exact fun heq => hpoints (heq ▸ by decide)

/-! ## Cutting -/

namespace Metadata

theorem exposedNames_eq (value : Text) :
    exposedNames value = ((Text.pieces ',' value).map (Text.trimBy isNamePadding)).filter
      fun name => !name.isEmpty := rfl

/-- A comma cuts the names in front of it from those behind it. -/
theorem exposedNames_append_comma (t rest : Text) :
    exposedNames (t ++ ',' :: rest) = exposedNames t ++ exposedNames rest := by
  simp only [exposedNames_eq, Text.pieces_append_cons, List.map_append, List.filter_append]

theorem exposedNames_of_not_mem {t : Text} (h : ',' ∉ t) :
    exposedNames t = [Text.trimBy isNamePadding t].filter fun name => !name.isEmpty := by
  rw [exposedNames_eq, Text.pieces_of_not_mem h, List.map_singleton]

theorem comma_not_mem {t : Text} (h : ∀ c ∈ t, isNamePadding c = true) : ',' ∉ t :=
  fun hmem => absurd (h ',' hmem) (by decide)

theorem exposedNames_padding {t : Text} (h : ∀ c ∈ t, isNamePadding c = true) :
    exposedNames t = [] := by
  rw [exposedNames_of_not_mem (comma_not_mem h), Text.trimBy_of_all _ h]
  rfl

theorem exposedNames_word {before word after : Text}
    (hbefore : ∀ c ∈ before, isNamePadding c = true) (hword : IsWord word)
    (hafter : ∀ c ∈ after, isNamePadding c = true) :
    exposedNames (before ++ word ++ after) = [word] := by
  have hcomma : ',' ∉ before ++ word ++ after := by
    simp only [List.mem_append, not_or]
    exact ⟨⟨comma_not_mem hbefore, fun hmem => (of_spellsWord (hword.2 _ hmem)).1 rfl⟩,
      comma_not_mem hafter⟩
  have htrim : Text.trimBy isNamePadding (before ++ word ++ after) = word :=
    Text.trimBy_padded _ hbefore (fun c hc => (of_spellsWord (hword.2 c hc)).2.1) hafter
  rw [exposedNames_of_not_mem hcomma, htrim]
  simp [hword.1]

/-- A character that is neither cut at nor dropped is in a name. -/
theorem exists_exposedName_of_mem {value : Text} {c : Char} (hc : c ∈ value) (hcomma : c ≠ ',')
    (hpadding : isNamePadding c = false) : ∃ name ∈ exposedNames value, c ∈ name := by
  obtain ⟨piece, hpiece, hmem⟩ := Text.exists_piece_of_mem hc hcomma
  have hname := Text.mem_trimBy hmem hpadding
  refine ⟨_, ?_, hname⟩
  rw [exposedNames_eq, List.mem_filter]
  refine ⟨List.mem_map_of_mem hpiece, ?_⟩
  simp [List.ne_nil_of_mem hname]

end Metadata

/-! ## Lists of names -/

/-- Between the names of a list stand blanks only: no comment, and no space of no width. -/
def HasPlainGaps (value : Text) : Prop :=
  ∀ c ∈ value, c ≠ '/' ∧ c.toNat ≠ 0x200B ∧ c.toNat ≠ 0xFEFF

instance (value : Text) : Decidable (HasPlainGaps value) :=
  List.decidableBAll (fun c => c ≠ '/' ∧ c.toNat ≠ 0x200B ∧ c.toNat ≠ 0xFEFF) value

theorem isNamePadding_of_gap {c : Char} (h : isLineEnd c = true ∨ isSpace c = true)
    (hplain : c ≠ '/' ∧ c.toNat ≠ 0x200B ∧ c.toNat ≠ 0xFEFF) : isNamePadding c = true := by
  obtain ⟨-, hjoin, hmark⟩ := hplain
  have hblank : Text.isBlank c = true := by
    rcases h with h | h
    · simp only [isLineEnd, Bool.or_eq_true, beq_iff_eq] at h
      rcases h with ((rfl | rfl) | h) | h
      · decide
      · decide
      · simp [Text.isBlank, h]
      · simp [Text.isBlank, h]
    · simp only [isSpace, Bool.or_eq_true, Bool.and_eq_true, beq_iff_eq, decide_eq_true_eq] at h
      simp only [Text.isBlank, Bool.or_eq_true, Bool.and_eq_true, beq_iff_eq, decide_eq_true_eq]
      omega
  simp [isNamePadding, hblank]

namespace Syntax

theorem IsGap.isNamePadding {gap : Text} (h : IsGap gap) (hplain : HasPlainGaps gap) :
    ∀ c ∈ gap, isNamePadding c = true := by
  have hslash : '/' ∉ gap := fun hmem => (hplain _ hmem).1 rfl
  exact fun c hc => isNamePadding_of_gap (h.of_no_slash hslash c hc) (hplain c hc)

variable {body : Text} {names : List Text}

theorem ListTail.isWord (h : ListTail body names) : ∀ name ∈ names, IsWord name := by
  induction h with
  | close _ => simp
  | hole _ _ ih => exact ih
  | name _ hword _ _ ih => exact List.forall_mem_cons.2 ⟨hword, ih⟩
  | last _ hword _ => simpa using hword

/-- If only blanks stand between the names of a list, then just these are cut out. -/
theorem ListTail.exposedNames_append (h : ListTail body names) (hplain : HasPlainGaps body)
    {front : Text} (hfront : ∀ c ∈ front, isNamePadding c = true) :
    Metadata.exposedNames (front ++ body) = names := by
  have hbracket : ∀ c ∈ [']'], isNamePadding c = true := List.forall_mem_singleton.2 rfl
  induction h generalizing front with
  | @close gap hgap =>
      have hpadding := hgap.isNamePadding fun c hc => hplain c (by simp [hc])
      refine Metadata.exposedNames_padding ?_
      simp only [List.forall_mem_append]
      exact ⟨hfront, hpadding, hbracket⟩
  | @hole gap rest names hgap _ ih =>
      have hpadding := hgap.isNamePadding fun c hc => hplain c (by simp [hc])
      have hrest := ih (fun c hc => hplain c (by simp [hc])) (List.forall_mem_nil _)
      rw [← List.append_assoc, Metadata.exposedNames_append_comma,
        Metadata.exposedNames_padding (List.forall_mem_append.2 ⟨hfront, hpadding⟩)]
      exact hrest
  | @name before word after rest names hbefore hword hafter _ ih =>
      have hpadding := hbefore.isNamePadding fun c hc => hplain c (by simp [hc])
      have hpadding' := hafter.isNamePadding fun c hc => hplain c (by simp [hc])
      have hrest := ih (fun c hc => hplain c (by simp [hc])) (List.forall_mem_nil _)
      have hfirst := Metadata.exposedNames_word
        (List.forall_mem_append.2 ⟨hfront, hpadding⟩) hword hpadding'
      rw [← List.append_assoc, Metadata.exposedNames_append_comma, ← List.append_assoc,
        ← List.append_assoc, hfirst]
      exact congrArg (word :: ·) hrest
  | @last before word after hbefore hword hafter =>
      have hpadding := hbefore.isNamePadding fun c hc => hplain c (by simp [hc])
      have hpadding' := hafter.isNamePadding fun c hc => hplain c (by simp [hc])
      have hfirst := Metadata.exposedNames_word
        (List.forall_mem_append.2 ⟨hfront, hpadding⟩) hword
        (List.forall_mem_append.2 ⟨hpadding', hbracket⟩)
      simpa only [List.append_assoc] using hfirst

end Syntax

/-- If only words are cut out, the gaps are plain: all else in a gap comes along with a name. -/
theorem hasPlainGaps_of_exposedNames {value : Text}
    (h : ∀ name ∈ Metadata.exposedNames value, IsWord name) : HasPlainGaps value := by
  intro c hc
  by_contra hgap
  have hkept : c ≠ ',' ∧ isNamePadding c = false := by
    have hcases : c = '/' ∨ c.toNat = 0x200B ∨ c.toNat = 0xFEFF := by tauto
    rcases hcases with rfl | hjoin | hmark
    · decide
    · rw [← Char.ofNat_toNat c, hjoin]
      decide
    · rw [← Char.ofNat_toNat c, hmark]
      decide
  obtain ⟨name, hname, hmem⟩ := Metadata.exists_exposedName_of_mem hc hkept.1 hkept.2
  exact hgap (of_spellsWord ((h name hname).2 c hmem)).2.2

/-- The names that are cut out of a list are its names exactly if it has plain gaps. -/
theorem exposedNames_eq_iff {body : Text} {names : List Text} (h : ListTail body names) :
    Metadata.exposedNames ('[' :: body) = names ↔ HasPlainGaps ('[' :: body) := by
  constructor
  · intro heq
    exact hasPlainGaps_of_exposedNames (heq ▸ h.isWord)
  · intro hplain
    have hbracket : ∀ c ∈ ['['], isNamePadding c = true := List.forall_mem_singleton.2 rfl
    exact h.exposedNames_append (fun c hc => hplain c (List.mem_cons_of_mem _ hc)) hbracket

/-! ## Calls for metadata -/

theorem exists_of_forall₂_append_cons {α β : Type} {R : α → β → Prop} {front back : List α} {a : α}
    {bs : List β} (h : List.Forall₂ R (front ++ a :: back) bs) :
    ∃ front' b back', bs = front' ++ b :: back' ∧ List.Forall₂ R front front' ∧ R a b ∧
      List.Forall₂ R back back' := by
  induction front generalizing bs with
  | nil =>
      obtain ⟨b, back', hb, hback, rfl⟩ := List.forall₂_cons_left_iff.1 h
      exact ⟨[], b, back', rfl, .nil, hb, hback⟩
  | cons x front ih =>
      obtain ⟨y, rest, hy, hrest, rfl⟩ := List.forall₂_cons_left_iff.1 h
      obtain ⟨front', b, back', rfl, hfront, hb, hback⟩ := ih hrest
      exact ⟨y :: front', b, back', rfl, .cons hy hfront, hb, hback⟩

theorem EntryOf.eq {script : Text} {p : Property} {entry : MetadataEntry}
    (h : EntryOf script p entry) :
    p.static? = some entry.key ∧ entry.value = p.valueText script := by
  cases h with
  | pair loc value hkey => exact ⟨hkey, rfl⟩
  | shorthand loc name default => exact ⟨rfl, rfl⟩

namespace TargetClass

theorem mergeMetadata_append (c : TargetClass) (first second : List MetadataEntry) :
    c.mergeMetadata (first ++ second) = (c.mergeMetadata first).mergeMetadata second :=
  List.foldl_append

/-- Of two lists of names to expose the same class comes only if they are the same. -/
theorem mergeMetadata_expose_inj {c : TargetClass} {names names' : List Text}
    {entries : List MetadataEntry}
    (h : (c.expose names).mergeMetadata entries = (c.expose names').mergeMetadata entries) :
    names = names' := by
  have hproperties := congrArg TargetClass.properties h
  simp only [mergeMetadata_eq, expose, List.append_cancel_left_eq, List.append_cancel_right_eq]
    at hproperties
  exact List.map_injective_iff.2 (fun a b hab => congrArg ClassProperty.name hab) hproperties

end TargetClass

section Scripts

variable {file script : Text} {program : Program} {items : List ScriptItem}

/--
The names in the value of `exposes` become protected properties that are initialized with them, in
their order, and nothing else comes of this entry of the metadata, if the list has plain gaps and
only then.  The entries in front of it and behind it are merged as they are without it.
-/
theorem exposed_of_script (hparse : Program.parse script = .ok program)
    (hitems : classify file script = .ok items) {before after : List Stmt} {s : Stmt}
    (hbody : program.body = before ++ s :: after) {callee : Expr} {loc : Loc}
    {front back : List Property} {p : Property}
    (hcall : s.call? = some (callee, [.object loc (front ++ p :: back)]))
    (hname : callee.loc.text script = metadataFunction)
    (hkey : p.static? = some Metadata.exposesKey) {names : List Text}
    (hnames : p.listedNames? script = some names) :
    ∃ itemsBefore itemsAfter entriesFront entriesBack,
      let exposed : MetadataEntry := ⟨Metadata.exposesKey, p.valueText script⟩
      let entries := entriesFront ++ exposed :: entriesBack
      items = itemsBefore ++ .defineMetadata entries :: itemsAfter ∧
      List.Forall₂ (ItemOf script) before itemsBefore ∧
      List.Forall₂ (EntryOf script) front entriesFront ∧
      List.Forall₂ (EntryOf script) back entriesBack ∧
      ∀ c : TargetClass,
        let merged := c.mergeMetadata entriesFront
        let added : List ClassProperty := names.map fun name => ⟨.isProtected, name, some name⟩
        c.mergeMetadata entries =
            TargetClass.mergeMetadata
              { merged with properties := merged.properties ++ added } entriesBack ↔
          HasPlainGaps (p.valueText script) := by
  have hall := (classify_eq_ok_iff hparse).1 hitems
  rw [hbody] at hall
  obtain ⟨itemsBefore, item, itemsAfter, rfl, hbefore, hitem, -⟩ :=
    exists_of_forall₂_append_cons hall
  obtain ⟨entries, rfl, hentries⟩ := exists_entries_of_itemOf hitem hcall hname
  obtain ⟨entriesFront, entry, entriesBack, rfl, hfront, hentry, hback⟩ :=
    exists_of_forall₂_append_cons hentries
  obtain ⟨hentryKey, hentryValue⟩ := hentry.eq
  obtain rfl : entry = ⟨Metadata.exposesKey, p.valueText script⟩ := by
    rw [← hentryValue, ← Option.some.inj (hentryKey.symm.trans hkey)]
  refine ⟨itemsBefore, itemsAfter, entriesFront, entriesBack, rfl, hbefore, hfront, hback,
    fun c => ?_⟩
  -- So far the statement alone decides; the rest turns on how the list is written.
  obtain ⟨body, hvalue, htail⟩ := listTail_of_listedNames? hparse (hbody ▸ by simp) hcall
    List.mem_cons_self (by simp) hnames
  rw [hvalue, ← exposedNames_eq_iff htail, TargetClass.mergeMetadata_append]
  exact ⟨TargetClass.mergeMetadata_expose_inj, fun heq => by rw [← heq]; rfl⟩

end Scripts

/-- Line breaks, a hole and a comma at the end: the two names are exposed, and nothing else. -/
theorem exposed_of_script_lines :
    let script : Text := "defineMetadata(\x7b exposes: [\n  Math,,\n  format,\n] \x7d)"
    let value : Text := "[\n  Math,,\n  format,\n]"
    let entries : List MetadataEntry := [⟨Metadata.exposesKey, value⟩]
    classify "card.ng" script = .ok [.defineMetadata entries] ∧
      ∀ c : TargetClass, c.mergeMetadata entries =
        { c with
          properties := c.properties ++
            [⟨.isProtected, "Math", some ("Math" : Text)⟩,
              ⟨.isProtected, "format", some ("format" : Text)⟩] } := by
  intro script value entries
  have hitems : classify "card.ng" script = .ok [.defineMetadata entries] := by decide +kernel
  have hlistings : (Program.parse script).toOption.map (fun program => program.body.map fun s =>
      s.call?.map fun call => call.2.map (Expr.listings script)) =
        some [some [[[("Math" : Text), "format"]]]] := by
    decide +kernel
  refine ⟨hitems, fun c => ?_⟩
  obtain ⟨program, hparse⟩ := exists_parse_of_classify hitems
  obtain ⟨s, rest, hs, hrest, hbody⟩ :=
    List.forall₂_cons_right_iff.1 ((classify_eq_ok_iff hparse).1 hitems)
  obtain rfl := List.forall₂_nil_right_iff.1 hrest
  cases hs with
  | @metadata callee loc properties _ hcall hname hentries =>
      obtain ⟨p, more, hp, hmore, rfl⟩ := List.forall₂_cons_right_iff.1 hentries
      obtain rfl := List.forall₂_nil_right_iff.1 hmore
      obtain ⟨hkey, hvalue⟩ := hp.eq
      have hnames : p.listedNames? script = some [("Math" : Text), "format"] := by
        have hfound : [p].filterMap (Property.listedNames? script) =
            [[("Math" : Text), "format"]] := by
          simpa [hparse, hbody, hcall, Expr.listings, Except.toOption] using hlistings
        cases hlisted : p.listedNames? script with
        | none => simp [hlisted] at hfound
        | some names => simpa [hlisted] using hfound
      have hbody' : program.body = [] ++ s :: [] := hbody
      have hcall' : s.call? = some (callee, [.object loc ([] ++ p :: [])]) := hcall
      obtain ⟨_, _, entriesFront, entriesBack, -, -, hfront, hback, hmerged⟩ :=
        exposed_of_script hparse hitems hbody' hcall' hname hkey hnames
      obtain rfl := List.forall₂_nil_left_iff.1 hfront
      obtain rfl := List.forall₂_nil_left_iff.1 hback
      rw [← hvalue] at hmerged
      exact (hmerged c).2 (by decide)

/-- A comment in a list of names: two are listed, and three others are made of it. -/
theorem exposed_of_commented_list :
    let script : Text := "defineMetadata(\x7b exposes: [a, /* b, */ c] \x7d);"
    let value : Text := "[a, /* b, */ c]"
    let entries : List MetadataEntry := [⟨Metadata.exposesKey, value⟩]
    classify "card.ng" script = .ok [.defineMetadata entries] ∧
      (Program.parse script).toOption.map (fun program => program.body.map fun s =>
        s.call?.map fun call => call.2.map (Expr.listings script)) =
          some [some [[[("a" : Text), "c"]]]] ∧
      ∀ c : TargetClass, (c.mergeMetadata entries).properties =
        c.properties ++
          [⟨.isProtected, "a", some ("a" : Text)⟩, ⟨.isProtected, "/* b", some ("/* b" : Text)⟩,
            ⟨.isProtected, "*/ c", some ("*/ c" : Text)⟩] := by
  refine ⟨by decide +kernel, by decide +kernel, fun c => ?_⟩
  rfl

end NgFile
