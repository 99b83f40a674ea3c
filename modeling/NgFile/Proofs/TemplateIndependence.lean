import NgFile.Proofs.ComponentImports
import NgFile.Proofs.Failures
import NgFile.Proofs.ScaffoldReading

/-!
# What a template has an influence on

Template and style texts end up in one metadata entry.  Two targets that only differ in the
value of an entry go on to do so, whatever items are promoted into them and whichever imports
are added, since no stage reads that value; once a metadata call sets the entry, they do not
differ at all.
-/

namespace NgFile

open Lexeme

def templateKey : Text := "template"

/-! ## Metadata -/

namespace Metadata

/-- Two metadata have the same keys in the same order, and the same values but for one key. -/
structure AgreesExcept (key : Text) (m m' : Metadata) : Prop where
  keys : m.keys = m'.keys
  get? : ∀ other, other ≠ key → m.get? other = m'.get? other

/-- Entries with distinct keys are told by their keys and the values under them. -/
theorem entries_ext {entries entries' : List MetadataEntry}
    (hnodup : (entries.map MetadataEntry.key).Nodup)
    (hkeys : entries.map MetadataEntry.key = entries'.map MetadataEntry.key)
    (hvalues : ∀ key ∈ entries.map MetadataEntry.key,
      (entries.find? fun e => e.key = key).map MetadataEntry.value =
        (entries'.find? fun e => e.key = key).map MetadataEntry.value) :
    entries = entries' := by
  induction entries generalizing entries' with
  | nil => exact (List.map_eq_nil_iff.1 hkeys.symm).symm
  | cons e rest ih =>
      obtain ⟨e', rest', rfl, hkey, hkeys⟩ := List.map_eq_cons_iff.1 hkeys.symm
      rw [List.map_cons, List.nodup_cons] at hnodup
      have hvalue : e.value = e'.value := by simpa [hkey] using hvalues e.key (by simp)
      have hentry : e = e' := by
        cases e
        cases e'
        simp_all
      rw [hentry, ih hnodup.2 hkeys.symm fun key hmem => ?_]
      have hne : e.key ≠ key := fun heq => hnodup.1 (heq ▸ hmem)
      have hne' : e'.key ≠ key := hkey ▸ hne
      simpa [hne, hne'] using hvalues key (by simp [hmem])

theorem ext_get? {m m' : Metadata} (hkeys : m.keys = m'.keys)
    (hvalues : ∀ key, m.get? key = m'.get? key) : m = m' := by
  obtain ⟨entries, hnodup⟩ := m
  obtain ⟨entries', hnodup'⟩ := m'
  obtain rfl : entries = entries' := entries_ext hnodup hkeys fun key _ => hvalues key
  rfl

theorem agreesExcept_upsert (m : Metadata) (key value value' : Text) :
    (m.upsert key value).AgreesExcept key (m.upsert key value') where
  keys := by rw [keys_upsert, keys_upsert]
  get? := fun k hk => by rw [get?_upsert, get?_upsert, if_neg hk, if_neg hk]

namespace AgreesExcept

variable {key : Text} {m m' : Metadata}

theorem upsert (h : m.AgreesExcept key m') (other value : Text) :
    (m.upsert other value).AgreesExcept key (m'.upsert other value) where
  keys := by rw [keys_upsert, keys_upsert, h.keys]
  get? := fun k hk => by rw [get?_upsert, get?_upsert, h.get? k hk]

theorem remove (h : m.AgreesExcept key m') (other : Text) :
    (m.remove other).AgreesExcept key (m'.remove other) where
  keys := by rw [keys_remove, keys_remove, h.keys]
  get? := fun k hk => by rw [get?_remove, get?_remove, h.get? k hk]

/-- Writing to the key removes the difference. -/
theorem upsert_eq (h : m.AgreesExcept key m') (value : Text) :
    m.upsert key value = m'.upsert key value := by
  refine ext_get? (h.upsert key value).keys fun k => ?_
  by_cases hk : k = key
  · rw [get?_upsert, get?_upsert, if_pos hk, if_pos hk]
  · exact (h.upsert key value).get? k hk

theorem mergeEntry (h : m.AgreesExcept key m') (entry : MetadataEntry) :
    (m.mergeEntry entry).AgreesExcept key (m'.mergeEntry entry) := by
  unfold Metadata.mergeEntry
  split
  · exact (h.remove selectorKey).upsert selectorKey entry.value
  · split
    · exact h
    · exact h.upsert entry.key entry.value

theorem mergeEntry_eq (h : m.AgreesExcept key m') (hkey : key ≠ exposesKey)
    {entry : MetadataEntry} (hentry : entry.key = key) :
    m.mergeEntry entry = m'.mergeEntry entry := by
  unfold Metadata.mergeEntry
  split
  · rename_i hselector
    rw [← hselector, hentry]
    exact (h.remove key).upsert_eq entry.value
  · rw [hentry, if_neg hkey, if_neg hkey]
    exact h.upsert_eq entry.value

theorem merge (h : m.AgreesExcept key m') (entries : List MetadataEntry) :
    (m.merge entries).AgreesExcept key (m'.merge entries) := by
  induction entries generalizing m m' with
  | nil => exact h
  | cons entry rest ih => exact ih (h.mergeEntry entry)

/-- Entries of which one sets the key remove the difference. -/
theorem merge_eq (h : m.AgreesExcept key m') (hkey : key ≠ exposesKey)
    {entries : List MetadataEntry} (hmem : ∃ entry ∈ entries, entry.key = key) :
    m.merge entries = m'.merge entries := by
  induction entries generalizing m m' with
  | nil => simp at hmem
  | cons entry rest ih =>
      rw [merge_cons, merge_cons]
      by_cases hentry : entry.key = key
      · rw [h.mergeEntry_eq hkey hentry]
      · exact ih (h.mergeEntry entry) (by simpa [hentry] using hmem)

end AgreesExcept

end Metadata

/-! ## Targets -/

/-- Two targets that are the same, but for the value of one metadata entry. -/
structure Target.AgreesExcept (key : Text) (t t' : Target) : Prop where
  fileName : t.fileName = t'.fileName
  kind : t.kind = t'.kind
  importTexts : t.importTexts = t'.importTexts
  name : t.entity.name = t'.entity.name
  decorator : t.entity.decorator = t'.entity.decorator
  properties : t.entity.properties = t'.entity.properties
  constructorBody : t.entity.constructorBody = t'.entity.constructorBody
  methods : t.entity.methods = t'.entity.methods
  metadata : t.entity.metadata.AgreesExcept key t'.entity.metadata

namespace Target.AgreesExcept

variable {key : Text} {t t' : Target}

theorem eq_of_metadata (h : t.AgreesExcept key t')
    (hmetadata : t.entity.metadata = t'.entity.metadata) : t = t' := by
  obtain ⟨_, _, _, entity⟩ := t
  obtain ⟨_, _, _, entity'⟩ := t'
  obtain ⟨_, _, _, _, _, _⟩ := entity
  obtain ⟨_, _, _, _, _, _⟩ := entity'
  obtain ⟨rfl, rfl, rfl, rfl, rfl, rfl, rfl, rfl, _⟩ := h
  obtain rfl := hmetadata
  rfl

theorem extend (h : t.AgreesExcept key t') (c : Contribution) :
    (t.extend c).AgreesExcept key (t'.extend c) where
  fileName := h.fileName
  kind := h.kind
  importTexts := by simp [Target.extend, h.importTexts]
  name := h.name
  decorator := h.decorator
  properties := by simp [Target.extend, h.properties]
  constructorBody := by simp [Target.extend, h.constructorBody]
  methods := by simp [Target.extend, h.methods]
  metadata := h.metadata.merge c.entries

theorem promote (h : t.AgreesExcept key t') (items : List ScriptItem) :
    (t.promote items).AgreesExcept key (t'.promote items) := by
  unfold Target.promote
  induction items generalizing t t' with
  | nil => exact h
  | cons item rest ih =>
      rw [List.foldl_cons, List.foldl_cons, apply_eq_extend, apply_eq_extend]
      exact ih (h.extend _)

/-- Adding component imports reads and writes another entry. -/
theorem aggregateImports (h : t.AgreesExcept key t') (hkey : key ≠ importsKey)
    (names : List Text) :
    (t.aggregateImports names).AgreesExcept key (t'.aggregateImports names) := by
  unfold Target.aggregateImports
  rw [h.kind, h.metadata.get? importsKey (Ne.symm hkey)]
  split
  · exact h
  · dsimp only
    split
    · exact h
    · exact { h with metadata := h.metadata.upsert importsKey _ }

theorem withScript (h : t.AgreesExcept key t') (hkey : key ≠ importsKey)
    (items : Option (List ScriptItem)) :
    (t.withScript items).AgreesExcept key (t'.withScript items) := by
  cases items with
  | none => exact h
  | some items => exact (h.promote items).aggregateImports hkey _

/-- Metadata calls of which one sets the key remove the difference. -/
theorem withScript_eq (h : t.AgreesExcept key t') (hkey : key ≠ Metadata.exposesKey)
    {items : List ScriptItem} (hmem : ∃ entry ∈ items.flatMap ScriptItem.metadataEntries,
      entry.key = key) : t.withScript (some items) = t'.withScript (some items) := by
  have hentries : (items.flatMap fun i => (Contribution.ofItem i).entries) =
      items.flatMap ScriptItem.metadataEntries := by
    simp only [ScriptItem.entries_ofItem]
  have hpromote : t.promote items = t'.promote items := by
    refine (h.promote items).eq_of_metadata ?_
    rw [metadata_promote, metadata_promote, hentries]
    exact h.metadata.merge_eq hkey hmem
  simp only [Target.withScript, hpromote]

end Target.AgreesExcept

/-! ## Scaffolds -/

namespace Scaffold

/-- A component's scaffold has its template and style in the last entry only. -/
theorem agreesExcept_target (file : Text) (names : Names) (template style template' style' : Text) :
    (target file names template style .component).AgreesExcept templateKey
      (target file names template' style' .component) where
  fileName := rfl
  kind := rfl
  importTexts := rfl
  name := rfl
  decorator := rfl
  properties := rfl
  constructorBody := rfl
  methods := rfl
  metadata := Metadata.agreesExcept_upsert _ _ _ _

end Scaffold

/-! ## Compilations -/

def targetOfSections (file identifier : Text) (sections : Sections) :
    Except CompileError Target := do
  let target ← scaffoldTarget file identifier sections
  let items ← scriptItems? file sections.script
  return target.withScript items

/-- Both of two compilations fail with the same error, or both have targets in a relation. -/
inductive SameOutcome (R : Target → Target → Prop) :
    Except CompileError Target → Except CompileError Target → Prop
  | error (e : CompileError) : SameOutcome R (.error e) (.error e)
  | ok {t t' : Target} (h : R t t') : SameOutcome R (.ok t) (.ok t')

/-- A script has a metadata call that sets a key. -/
def SetsKey (file script key : Text) : Prop :=
  ∃ items entries, scriptItems? file script = .ok (some items) ∧
    .defineMetadata entries ∈ items ∧ ∃ entry ∈ entries, entry.key = key

section Compilations

variable {file identifier : Text}

theorem compile_eq_targetOfSections (options : CompileOptions) {source : SourceFile}
    (h : Names.componentIdentifier? source.fileName = some identifier) :
    compile source options =
      Sections.extract source >>= fun sections =>
        targetOfSections source.fileName identifier sections >>= fun t =>
          t.serialize options.isProd := by
  cases hsections : Sections.extract source <;>
    simp [compile, targetOf, h, targetOfSections, hsections, bind, Except.bind]

theorem targetOfSections_of_template (h : IsVerbatim identifier) {template : Text}
    (htemplate : template ≠ []) (script style : Text) :
    targetOfSections file identifier ⟨script, template, style⟩ =
      (scriptItems? file script).map
        (Scaffold.target file (Names.ofIdentifier identifier) template style
          .component).withScript := by
  have hkind : EntityKind.ofTemplate template = .component := by
    simp [EntityKind.ofTemplate, htemplate]
  simp only [targetOfSections, scaffoldTarget_of_isVerbatim h, hkind]
  rfl

theorem targetOfSections_agree (h : IsVerbatim identifier) (script : Text)
    {template template' : Text} (htemplate : template ≠ []) (htemplate' : template' ≠ [])
    (style style' : Text) :
    SameOutcome (Target.AgreesExcept templateKey)
      (targetOfSections file identifier ⟨script, template, style⟩)
      (targetOfSections file identifier ⟨script, template', style'⟩) := by
  rw [targetOfSections_of_template h htemplate, targetOfSections_of_template h htemplate']
  cases scriptItems? file script with
  | error e => exact .error e
  | ok items =>
      exact .ok ((Scaffold.agreesExcept_target file _ template style template' style').withScript
        (by decide) items)

theorem targetOfSections_eq_of_setsKey (h : IsVerbatim identifier) {script : Text}
    (hscript : SetsKey file script templateKey) {template template' : Text}
    (htemplate : template ≠ []) (htemplate' : template' ≠ []) (style style' : Text) :
    targetOfSections file identifier ⟨script, template, style⟩ =
      targetOfSections file identifier ⟨script, template', style'⟩ := by
  obtain ⟨items, entries, hitems, hcall, entry, hentry, hkey⟩ := hscript
  have hmem : ∃ entry ∈ items.flatMap ScriptItem.metadataEntries, entry.key = templateKey :=
    ⟨entry, List.mem_flatMap.2 ⟨_, hcall, hentry⟩, hkey⟩
  rw [targetOfSections_of_template h htemplate, targetOfSections_of_template h htemplate', hitems]
  exact congrArg _ ((Scaffold.agreesExcept_target file _ template style template'
    style').withScript_eq (by decide) hmem)

/-- Without a template the style is not written anywhere. -/
theorem targetOfSections_style (file identifier script style style' : Text) :
    targetOfSections file identifier ⟨script, [], style⟩ =
      targetOfSections file identifier ⟨script, [], style'⟩ := rfl

/--
Two templates, with any styles, make a difference in the template entry only, and none if the
script sets that entry; without a template the style makes no difference.  The target of the
sections is all that a compilation takes from the content.
-/
theorem template_independence (file identifier script : Text) :
    (IsVerbatim identifier → ∀ template style template' style',
      template ≠ [] → template' ≠ [] →
        SameOutcome (Target.AgreesExcept templateKey)
          (targetOfSections file identifier ⟨script, template, style⟩)
          (targetOfSections file identifier ⟨script, template', style'⟩) ∧
        (SetsKey file script templateKey →
          targetOfSections file identifier ⟨script, template, style⟩ =
            targetOfSections file identifier ⟨script, template', style'⟩)) ∧
    (∀ style style', targetOfSections file identifier ⟨script, [], style⟩ =
      targetOfSections file identifier ⟨script, [], style'⟩) ∧
    ∀ content options, Names.componentIdentifier? file = some identifier →
      compile ⟨file, content⟩ options =
        Sections.extract ⟨file, content⟩ >>= fun sections =>
          targetOfSections file identifier sections >>= fun t => t.serialize options.isProd := by
  refine ⟨fun h template style template' style' htemplate htemplate' => ⟨?_, fun hscript => ?_⟩,
    targetOfSections_style file identifier script, fun content options h => ?_⟩
  · exact targetOfSections_agree h script htemplate htemplate' style style'
  · exact targetOfSections_eq_of_setsKey h hscript htemplate htemplate' style style'
  · exact compile_eq_targetOfSections options h

/-- A template that would end its literal makes a difference in its entry only. -/
theorem template_independence_card :
    SameOutcome (Target.AgreesExcept templateKey)
      (targetOfSections "card.ng" "card" ⟨"const count = 0;", "<p></p>", "p \x7b\x7d"⟩)
      (targetOfSections "card.ng" "card" ⟨"const count = 0;", "`, selector: '", []⟩) ∧
    targetOfSections "card.ng" "card" ⟨"defineMetadata(\x7b template \x7d);", "<p></p>", []⟩ =
      targetOfSections "card.ng" "card" ⟨"defineMetadata(\x7b template \x7d);", "<b></b>", []⟩ := by
  have hverbatim : IsVerbatim "card" := by decide
  have hscript : SetsKey "card.ng" "defineMetadata(\x7b template \x7d);" templateKey :=
    ⟨[.defineMetadata [⟨"template", "template"⟩]], [⟨"template", "template"⟩], by decide +kernel,
      by simp, ⟨"template", "template"⟩, by simp, rfl⟩
  constructor
  · exact ((template_independence "card.ng" "card" _).1 hverbatim _ _ _ _ (by decide)
      (by decide)).1
  · exact ((template_independence "card.ng" "card" _).1 hverbatim _ _ _ _ (by decide)
      (by decide)).2 hscript

end Compilations

end NgFile
