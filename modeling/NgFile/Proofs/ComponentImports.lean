import NgFile.Proofs.Edits
import NgFile.Proofs.ScaffoldReading

/-!
# The imports of a component

What a script leaves under the key `imports` depends on two things: the last value that its
metadata calls write there, and the component files that it imports, in their order.  A value
that is an array literal is extended; any other value stays as it is.
-/

namespace NgFile

open Syntax

/-! ## What a script has to say about imports -/

namespace ScriptItem

def isImport : ScriptItem → Bool
  | importDecl _ _ _ => true
  | _ => false

def isMetadata : ScriptItem → Bool
  | defineMetadata _ => true
  | _ => false

def componentName? : ScriptItem → Option Text
  | importDecl _ (some name) true => if name = [] then none else some name
  | _ => none

def metadataEntries : ScriptItem → List MetadataEntry
  | defineMetadata entries => entries
  | _ => []

theorem entries_ofItem (item : ScriptItem) :
    (Contribution.ofItem item).entries = item.metadataEntries := by
  cases item <;> rfl

theorem filter_componentImports (items : List ScriptItem) :
    (Target.componentImports items).filter (fun name => !name.isEmpty) =
      items.filterMap componentName? := by
  unfold Target.componentImports
  induction items with
  | nil => rfl
  | cons item rest ih =>
      cases item with
      | importDecl text default fromNgFile =>
          cases fromNgFile with
          | false => cases default <;> exact ih
          | true =>
              cases default with
              | none => exact ih
              | some name =>
                  by_cases hname : name = []
                  · simpa [componentImport?, componentName?, hname] using ih
                  · simpa [componentImport?, componentName?, hname] using ih
      | _ => exact ih

/-- Only imports name component files. -/
theorem filterMap_componentName?_filter (items : List ScriptItem) :
    (items.filter isImport).filterMap componentName? = items.filterMap componentName? := by
  induction items with
  | nil => rfl
  | cons item rest ih =>
      cases item with
      | importDecl text default fromNgFile =>
          simp only [List.filter_cons, isImport, if_true, List.filterMap_cons, ih]
      | _ => exact ih

/-- Only metadata calls have metadata entries. -/
theorem flatMap_metadataEntries_filter (items : List ScriptItem) :
    (items.filter isMetadata).flatMap metadataEntries = items.flatMap metadataEntries := by
  induction items with
  | nil => rfl
  | cons item rest ih =>
      cases item with
      | defineMetadata entries =>
          simp only [List.filter_cons, isMetadata, if_true, List.flatMap_cons, ih]
      | _ => exact ih

end ScriptItem

/-! ## Array literals -/

/-- A text is an array literal of elements, not counting holes. -/
def IsArrayOf (text : Text) (elements : List Text) : Prop :=
  ∃ loc items, Expr.parse text = .ok (.array loc items) ∧
    elements = items.filterMap fun e => if e.isHole then none else some (e.loc.text text)

theorem arrayElements?_eq_some_iff {text : Text} {elements : List Text} :
    arrayElements? text = some elements ↔ IsArrayOf text elements := by
  have htexts (items : List Expr) :
      (items.filter fun e => !e.isHole).map (fun e => e.loc.text text) =
        items.filterMap fun e => if e.isHole then none else some (e.loc.text text) := by
    induction items with
    | nil => rfl
    | cons e rest ih =>
        cases hhole : e.isHole with
        | true => simpa [hhole] using ih
        | false => simpa [hhole] using ih
  unfold arrayElements?
  constructor
  · intro h
    split at h
    · rename_i loc items hparse
      exact ⟨loc, items, hparse, by rw [← htexts, Option.some.inj h]⟩
    · cases h
  · rintro ⟨loc, items, hparse, rfl⟩
    simp only [hparse, htexts]

instance (text : Text) (elements : List Text) : Decidable (IsArrayOf text elements) :=
  decidable_of_iff (arrayElements? text = some elements) arrayElements?_eq_some_iff

theorem arrayElements?_eq_none_iff {text : Text} :
    arrayElements? text = none ↔ ∀ elements, ¬ IsArrayOf text elements := by
  simp only [← arrayElements?_eq_some_iff, Option.eq_none_iff_forall_ne_some]

/-! ## The imports in the end -/

namespace Target

/-- What stands under `imports` when a script's items have been applied and its imports added. -/
def importsAfter (t : Target) (items : List ScriptItem) : Option Text :=
  ((t.promote items).aggregateImports (componentImports items)).entity.metadata.get? importsKey

theorem get?_aggregateImports {t : Target} (hkind : t.kind = .component) (names : List Text) :
    (t.aggregateImports names).entity.metadata.get? importsKey =
      (extendedImports? (t.entity.metadata.get? importsKey)
        (names.filter fun name => !name.isEmpty)).or (t.entity.metadata.get? importsKey) := by
  simp only [aggregateImports, hkind]
  cases extendedImports? (t.entity.metadata.get? importsKey)
      (names.filter fun name => !name.isEmpty) with
  | none => rfl
  | some value => simp [mapEntity, Metadata.get?_upsert]

variable {t : Target} (habsent : t.entity.metadata.get? importsKey = none)
  (items : List ScriptItem)

include habsent

theorem get?_promote :
    (t.promote items).entity.metadata.get? importsKey =
      Metadata.lastValue? importsKey (items.flatMap ScriptItem.metadataEntries) := by
  have hentries : (items.flatMap fun i => (Contribution.ofItem i).entries) =
      items.flatMap ScriptItem.metadataEntries := by
    simp only [ScriptItem.entries_ofItem]
  rw [metadata_promote, Metadata.get?_merge _ _ (by decide), habsent, Option.or_none, hentries]

theorem importsAfter_component (hkind : t.kind = .component) :
    let value := Metadata.lastValue? importsKey (items.flatMap ScriptItem.metadataEntries)
    t.importsAfter items =
      (extendedImports? value (items.filterMap ScriptItem.componentName?)).or value := by
  have hkind' : (t.promote items).kind = .component := by
    rw [(evolves_promote t items).kind, hkind]
  rw [importsAfter, get?_aggregateImports hkind', get?_promote habsent,
    ScriptItem.filter_componentImports]

theorem importsAfter_directive (hkind : t.kind = .directive) :
    t.importsAfter items =
      Metadata.lastValue? importsKey (items.flatMap ScriptItem.metadataEntries) := by
  have hkind' : (t.promote items).kind = .directive := by
    rw [(evolves_promote t items).kind, hkind]
  rw [importsAfter, aggregateImports, hkind']
  exact get?_promote habsent items

/-- How other items are placed among the imports and the metadata calls does not matter. -/
theorem importsAfter_congr {items' : List ScriptItem}
    (himports : items'.filter ScriptItem.isImport = items.filter ScriptItem.isImport)
    (hmetadata : items'.filter ScriptItem.isMetadata = items.filter ScriptItem.isMetadata) :
    t.importsAfter items' = t.importsAfter items := by
  have hnames : items'.filterMap ScriptItem.componentName? =
      items.filterMap ScriptItem.componentName? := by
    rw [← ScriptItem.filterMap_componentName?_filter items', himports,
      ScriptItem.filterMap_componentName?_filter]
  have hentries : items'.flatMap ScriptItem.metadataEntries =
      items.flatMap ScriptItem.metadataEntries := by
    rw [← ScriptItem.flatMap_metadataEntries_filter items', hmetadata,
      ScriptItem.flatMap_metadataEntries_filter]
  cases hkind : t.kind with
  | component =>
      rw [importsAfter_component habsent items' hkind, importsAfter_component habsent items hkind,
        hnames, hentries]
  | directive =>
      rw [importsAfter_directive habsent items' hkind, importsAfter_directive habsent items hkind,
        hentries]

omit habsent

/--
The imports of a component are the last value that metadata calls give, with the names of the
imported component files added if it is an array literal, or these names alone if there is no
value; those of a directive are the last value.  They depend on the imports and the metadata
calls of the script, and not on how these are interleaved.
-/
theorem imports_of_items (t : Target) (habsent : t.entity.metadata.get? importsKey = none)
    (items : List ScriptItem) :
    let names := items.filterMap ScriptItem.componentName?
    let value := Metadata.lastValue? importsKey (items.flatMap ScriptItem.metadataEntries)
    (t.kind = .component →
      (value = none →
        t.importsAfter items = some ("[" ++ Text.joinWith ", " names ++ "]")) ∧
      (∀ text, value = some text → (names = [] ∨ ∀ elements, ¬ IsArrayOf text elements) →
        t.importsAfter items = some text) ∧
      (∀ text elements, value = some text → names ≠ [] → IsArrayOf text elements →
        t.importsAfter items = some ("[" ++ Text.joinWith ", " (elements ++ names) ++ "]"))) ∧
    (t.kind = .directive → t.importsAfter items = value) ∧
    ∀ items' : List ScriptItem,
      items'.filter ScriptItem.isImport = items.filter ScriptItem.isImport →
      items'.filter ScriptItem.isMetadata = items.filter ScriptItem.isMetadata →
      t.importsAfter items' = t.importsAfter items := by
  intro names value
  refine ⟨fun hkind => ?_, fun hkind => importsAfter_directive habsent items hkind,
    fun items' himports hmetadata => importsAfter_congr habsent items himports hmetadata⟩
  have hafter : t.importsAfter items = (extendedImports? value names).or value :=
    importsAfter_component habsent items hkind
  refine ⟨fun hvalue => ?_, fun text hvalue hstays => ?_,
    fun text elements hvalue hnames harray => ?_⟩
  · rw [hafter, hvalue]
    rfl
  · have hnone : extendedImports? value names = none := by
      rw [hvalue, extendedImports?]
      rcases hstays with hnames | hother
      · rw [hnames]
        rfl
      · rw [arrayElements?_eq_none_iff.2 hother]
        split <;> rfl
    rw [hafter, hnone, hvalue]
    rfl
  · have hsome : names.isEmpty = false := by
      simpa using hnames
    rw [hafter, hvalue, extendedImports?, arrayElements?_eq_some_iff.2 harray, hsome]
    rfl

/-- The last of two values loses its hole and gets the name of the one imported component. -/
theorem imports_of_items_host :
    let t := Scaffold.target "host.ng" (Names.ofIdentifier "host") "<p></p>" [] .component
    let items : List ScriptItem :=
      [.defineMetadata [⟨importsKey, "[Old]"⟩], .importDecl "import './a.ng';" none true,
        .other "let x;", .defineMetadata [⟨importsKey, "[NgIf, , ...shared]"⟩],
        .importDecl "import Child from './child.ng';" (some "Child") true]
    let sorted : List ScriptItem :=
      [.importDecl "import './a.ng';" none true,
        .importDecl "import Child from './child.ng';" (some "Child") true,
        .defineMetadata [⟨importsKey, "[Old]"⟩],
        .defineMetadata [⟨importsKey, "[NgIf, , ...shared]"⟩]]
    t.entity.metadata.get? importsKey = none ∧
      IsArrayOf "[NgIf, , ...shared]" ["NgIf", "...shared"] ∧
      t.importsAfter items = some "[NgIf, ...shared, Child]" ∧
      t.importsAfter sorted = t.importsAfter items := by
  intro t items sorted
  have habsent : t.entity.metadata.get? importsKey = none := by decide
  have harray : IsArrayOf "[NgIf, , ...shared]" ["NgIf", "...shared"] :=
    arrayElements?_eq_some_iff.1 (by decide +kernel)
  obtain ⟨hcomponent, _, hcongr⟩ := imports_of_items t habsent items
  refine ⟨habsent, harray, ?_, hcongr sorted (by decide) (by decide)⟩
  exact (hcomponent rfl).2.2 _ _ (by decide) (by decide) harray

end Target

end NgFile
