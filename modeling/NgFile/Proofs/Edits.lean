import Mathlib.Data.List.Nodup
import NgFile.Imports
import NgFile.Proofs.Promotion

/-!
# Edits of a target

All changes to a target are edits of eight kinds.  What one edit keeps is kept by every
sequence of edits: the lists of a target grow at their ends, no metadata key is lost, and the
keys stay in their order but for the selector, which may go behind the others.
-/

namespace NgFile

namespace Metadata

def selectorLast (keys : List Text) : List Text :=
  keys.filter (· ≠ selectorKey) ++ keys.filter (· = selectorKey)

theorem filter_selectorLast (p : Text → Bool) (keys : List Text) :
    (selectorLast keys).filter p = selectorLast (keys.filter p) := by
  simp only [selectorLast, List.filter_append, List.filter_filter, Bool.and_comm]

theorem selectorLast_selectorLast (keys : List Text) :
    selectorLast (selectorLast keys) = selectorLast keys := by
  simp [selectorLast, List.filter_append, List.filter_filter]

/-- No key is lost, and the keys stay in their order unless the selector goes behind them. -/
structure KeepsKeys (m m' : Metadata) : Prop where
  subset : m.keys ⊆ m'.keys
  order : m'.keys.filter (· ∈ m.keys) = m.keys ∨
    m'.keys.filter (· ∈ m.keys) = selectorLast m.keys

theorem filter_mem_keys (m : Metadata) : m.keys.filter (· ∈ m.keys) = m.keys := by
  rw [List.filter_eq_self]
  intro key hkey
  simpa using hkey

theorem KeepsKeys.refl (m : Metadata) : KeepsKeys m m :=
  ⟨List.Subset.refl _, .inl (filter_mem_keys m)⟩

theorem KeepsKeys.trans {m₁ m₂ m₃ : Metadata} (h : KeepsKeys m₁ m₂) (h' : KeepsKeys m₂ m₃) :
    KeepsKeys m₁ m₃ := by
  refine ⟨fun key hkey => h'.subset (h.subset hkey), ?_⟩
  have hthrough : m₃.keys.filter (· ∈ m₁.keys) =
      (m₃.keys.filter (· ∈ m₂.keys)).filter (· ∈ m₁.keys) := by
    rw [List.filter_filter]
    refine List.filter_congr fun key _ => ?_
    by_cases hkey : key ∈ m₁.keys
    · simp [hkey, h.subset hkey]
    · simp [hkey]
  rw [hthrough]
  rcases h'.order with h' | h'
  · rw [h']
    exact h.order
  · rw [h', filter_selectorLast]
    right
    rcases h.order with h | h
    · rw [h]
    · rw [h, selectorLast_selectorLast]

theorem keepsKeys_upsert (m : Metadata) (key value : Text) :
    KeepsKeys m (m.upsert key value) := by
  have hkeys := keys_upsert m key value
  by_cases hkey : key ∈ m.keys
  · rw [if_pos hkey] at hkeys
    constructor
    · rw [hkeys]
      exact List.Subset.refl _
    · left
      rw [hkeys, filter_mem_keys]
  · rw [if_neg hkey] at hkeys
    constructor
    · rw [hkeys]
      exact List.subset_append_left _ _
    · left
      rw [hkeys, List.filter_append, filter_mem_keys]
      simp [hkey]

theorem keys_replaceSelector (m : Metadata) (value : Text) :
    ((m.remove selectorKey).upsert selectorKey value).keys =
      m.keys.filter (· ≠ selectorKey) ++ [selectorKey] := by
  have hremoved : selectorKey ∉ (m.remove selectorKey).keys := by
    simp [keys_remove]
  rw [keys_upsert, if_neg hremoved, keys_remove]

theorem keepsKeys_replaceSelector (m : Metadata) (value : Text) :
    KeepsKeys m ((m.remove selectorKey).upsert selectorKey value) := by
  have hkeys := keys_replaceSelector m value
  constructor
  · intro key hkey
    by_cases hselector : key = selectorKey
    · simp [hkeys, hselector]
    · simp [hkeys, hselector, hkey]
  · right
    have hothers : (m.keys.filter (· ≠ selectorKey)).filter (· ∈ m.keys) =
        m.keys.filter (· ≠ selectorKey) := by
      rw [List.filter_eq_self]
      intro key hkey
      simpa using (List.mem_filter.1 hkey).1
    have hselector : m.keys.filter (· = selectorKey) = [selectorKey].filter (· ∈ m.keys) := by
      have hnodup : m.keys.Nodup := m.keys_nodup
      rw [List.filter_eq, hnodup.count]
      by_cases hmem : selectorKey ∈ m.keys
      · simp [hmem]
      · simp [hmem]
    rw [hkeys, List.filter_append, selectorLast, hothers, hselector]

theorem keepsKeys_mergeEntry (m : Metadata) (entry : MetadataEntry) :
    KeepsKeys m (m.mergeEntry entry) := by
  unfold mergeEntry
  split
  · exact keepsKeys_replaceSelector m entry.value
  · split
    · exact .refl m
    · exact keepsKeys_upsert m entry.key entry.value

theorem keepsKeys_merge (m : Metadata) (entries : List MetadataEntry) :
    KeepsKeys m (m.merge entries) := by
  induction entries generalizing m with
  | nil => exact .refl m
  | cons entry rest ih => exact (keepsKeys_mergeEntry m entry).trans (ih _)

theorem exposesKey_mem_mergeEntry {m : Metadata} {entry : MetadataEntry}
    (h : exposesKey ∈ (m.mergeEntry entry).keys) : exposesKey ∈ m.keys := by
  have hne : exposesKey ≠ selectorKey := by decide
  unfold mergeEntry at h
  split at h
  · rw [keys_replaceSelector] at h
    simpa [hne] using h
  · split at h
    · exact h
    · rename_i hother
      rw [keys_upsert] at h
      split at h
      · exact h
      · have hentry : exposesKey ≠ entry.key := fun heq => hother heq.symm
        simpa [hentry] using h

theorem exposesKey_mem_merge {m : Metadata} {entries : List MetadataEntry}
    (h : exposesKey ∈ (m.merge entries).keys) : exposesKey ∈ m.keys := by
  induction entries generalizing m with
  | nil => exact h
  | cons entry rest ih => exact exposesKey_mem_mergeEntry (ih h)

end Metadata

inductive Edit
  | addImport (text : Text)
  | addProperty (property : ClassProperty)
  | addStatement (statement : Text)
  | addMethod (method : ClassMethod)
  | upsert (key value : Text)
  | mergeMetadata (entries : List MetadataEntry)
  | promote (items : List ScriptItem)
  | aggregateImports (names : List Text)

def Edit.apply (t : Target) : Edit → Target
  | addImport text => t.addImport text
  | addProperty property => t.mapEntity fun c => c.addProperty property
  | addStatement statement => t.mapEntity fun c => c.addStatement statement
  | addMethod method => t.mapEntity fun c => c.addMethod method
  | upsert key value => t.mapEntity fun c => { c with metadata := c.metadata.upsert key value }
  | mergeMetadata entries => t.mapEntity fun c => c.mergeMetadata entries
  | promote items => t.promote items
  | aggregateImports names => t.aggregateImports names

namespace Target

def edit (t : Target) (edits : List Edit) : Target :=
  edits.foldl Edit.apply t

def keys (t : Target) : List Text :=
  t.entity.metadata.keys

/-- What a target keeps when it is edited. -/
structure Evolves (t t' : Target) : Prop where
  fileName : t'.fileName = t.fileName
  kind : t'.kind = t.kind
  name : t'.entity.name = t.entity.name
  decorator : t'.entity.decorator = t.entity.decorator
  importTexts : t.importTexts <+: t'.importTexts
  properties : t.entity.properties <+: t'.entity.properties
  constructorBody : t.entity.constructorBody <+: t'.entity.constructorBody
  methods : t.entity.methods <+: t'.entity.methods
  metadata : Metadata.KeepsKeys t.entity.metadata t'.entity.metadata

theorem Evolves.refl (t : Target) : t.Evolves t :=
  ⟨rfl, rfl, rfl, rfl, List.prefix_refl _, List.prefix_refl _, List.prefix_refl _,
    List.prefix_refl _, .refl _⟩

theorem Evolves.trans {t₁ t₂ t₃ : Target} (h : t₁.Evolves t₂) (h' : t₂.Evolves t₃) :
    t₁.Evolves t₃ where
  fileName := h'.fileName.trans h.fileName
  kind := h'.kind.trans h.kind
  name := h'.name.trans h.name
  decorator := h'.decorator.trans h.decorator
  importTexts := h.importTexts.trans h'.importTexts
  properties := h.properties.trans h'.properties
  constructorBody := h.constructorBody.trans h'.constructorBody
  methods := h.methods.trans h'.methods
  metadata := h.metadata.trans h'.metadata

theorem evolves_extend (t : Target) (c : Contribution) : t.Evolves (t.extend c) :=
  ⟨rfl, rfl, rfl, rfl, List.prefix_append _ _, List.prefix_append _ _, List.prefix_append _ _,
    List.prefix_append _ _, Metadata.keepsKeys_merge _ _⟩

theorem evolves_promote (t : Target) (items : List ScriptItem) : t.Evolves (t.promote items) := by
  unfold promote
  induction items generalizing t with
  | nil => exact .refl t
  | cons item rest ih =>
      rw [List.foldl_cons, apply_eq_extend]
      exact (evolves_extend t _).trans (ih _)

/-- A part of a target that contributions are appended to gets those of all items, in order. -/
theorem promote_part {α : Type} (part : Target → List α) (added : Contribution → List α)
    (h : ∀ t c, part (t.extend c) = part t ++ added c) (t : Target) (items : List ScriptItem) :
    part (t.promote items) = part t ++ items.flatMap fun i => added (.ofItem i) := by
  unfold promote
  induction items generalizing t with
  | nil => simp
  | cons item rest ih =>
      rw [List.foldl_cons, apply_eq_extend, ih, h, List.flatMap_cons, List.append_assoc]

/-- Promotion merges the metadata entries of all items as one list. -/
theorem metadata_promote (t : Target) (items : List ScriptItem) :
    (t.promote items).entity.metadata =
      t.entity.metadata.merge (items.flatMap fun i => (Contribution.ofItem i).entries) := by
  unfold promote
  induction items generalizing t with
  | nil => rfl
  | cons item rest ih =>
      rw [List.foldl_cons, apply_eq_extend, ih, List.flatMap_cons, Metadata.merge_append]
      rfl

theorem evolves_upsert (t : Target) (key value : Text) :
    t.Evolves (t.mapEntity fun c => { c with metadata := c.metadata.upsert key value }) :=
  { Evolves.refl t with metadata := Metadata.keepsKeys_upsert _ key value }

theorem evolves_aggregateImports (t : Target) (names : List Text) :
    t.Evolves (t.aggregateImports names) := by
  unfold aggregateImports
  split
  · exact .refl t
  · dsimp only
    split
    · exact .refl t
    · exact evolves_upsert t importsKey _

theorem evolves_apply (t : Target) (e : Edit) : t.Evolves (e.apply t) := by
  cases e with
  | addImport text => exact { Evolves.refl t with importTexts := List.prefix_append _ _ }
  | addProperty property => exact { Evolves.refl t with properties := List.prefix_append _ _ }
  | addStatement statement =>
      exact { Evolves.refl t with constructorBody := List.prefix_append _ _ }
  | addMethod method => exact { Evolves.refl t with methods := List.prefix_append _ _ }
  | upsert key value => exact evolves_upsert t key value
  | mergeMetadata entries =>
      simp only [Edit.apply, mapEntity, TargetClass.mergeMetadata_eq]
      exact { Evolves.refl t with
        properties := List.prefix_append _ _
        metadata := Metadata.keepsKeys_merge _ entries }
  | promote items => exact evolves_promote t items
  | aggregateImports names => exact evolves_aggregateImports t names

theorem evolves_edit (t : Target) (edits : List Edit) : t.Evolves (t.edit edits) := by
  unfold edit
  induction edits generalizing t with
  | nil => exact .refl t
  | cons e rest ih => exact (evolves_apply t e).trans (ih _)

/-! ## The key that is no metadata -/

theorem exposesKey_mem_promote {t : Target} {items : List ScriptItem}
    (h : Metadata.exposesKey ∈ (t.promote items).keys) : Metadata.exposesKey ∈ t.keys := by
  rw [keys, metadata_promote] at h
  exact Metadata.exposesKey_mem_merge h

theorem mem_keys_upsert {t : Target} {key value other : Text}
    (h : other ∈ (Edit.apply t (.upsert key value)).keys) : other ∈ t.keys ∨ other = key := by
  have hkeys : (Edit.apply t (.upsert key value)).keys =
      if key ∈ t.keys then t.keys else t.keys ++ [key] :=
    Metadata.keys_upsert t.entity.metadata key value
  rw [hkeys] at h
  split at h
  · exact .inl h
  · simpa using h

theorem exposesKey_mem_aggregateImports {t : Target} {names : List Text}
    (h : Metadata.exposesKey ∈ (t.aggregateImports names).keys) :
    Metadata.exposesKey ∈ t.keys := by
  have hne : Metadata.exposesKey ≠ importsKey := by decide
  unfold aggregateImports at h
  split at h
  · exact h
  · dsimp only at h
    split at h
    · exact h
    · exact (mem_keys_upsert h).resolve_right hne

/-- An edit makes the key one of the metadata only by writing it. -/
theorem exposesKey_mem_apply {t : Target} {e : Edit}
    (h : Metadata.exposesKey ∈ (e.apply t).keys) :
    Metadata.exposesKey ∈ t.keys ∨ ∃ value, e = .upsert Metadata.exposesKey value := by
  cases e with
  | upsert key value =>
      rcases mem_keys_upsert h with h | rfl
      · exact .inl h
      · exact .inr ⟨value, rfl⟩
  | mergeMetadata entries =>
      simp only [Edit.apply, keys, mapEntity, TargetClass.mergeMetadata_eq] at h
      exact .inl (Metadata.exposesKey_mem_merge h)
  | promote items => exact .inl (exposesKey_mem_promote h)
  | aggregateImports names => exact .inl (exposesKey_mem_aggregateImports h)
  | _ => exact .inl h

theorem exposesKey_mem_edit {t : Target} {edits : List Edit}
    (h : Metadata.exposesKey ∈ (t.edit edits).keys) :
    Metadata.exposesKey ∈ t.keys ∨ ∃ value, Edit.upsert Metadata.exposesKey value ∈ edits := by
  unfold edit at h
  induction edits generalizing t with
  | nil => exact .inl h
  | cons e rest ih =>
      rcases ih h with h | ⟨value, hvalue⟩
      · rcases exposesKey_mem_apply h with h | ⟨value, rfl⟩
        · exact .inl h
        · exact .inr ⟨value, List.mem_cons_self⟩
      · exact .inr ⟨value, List.mem_cons_of_mem e hvalue⟩

end Target

end NgFile
