import NgFile.Proofs.Aggregation
import NgFile.Proofs.CallStatements
import NgFile.Proofs.Lifting

/-!
# Imported components

The names that a compilation adds to the imports of a component are the default bindings of the
imports of component files.  What kind of import binds a name plays no part in that: the name of
a type-only import is added as well, although nothing is left of it when types are erased.
-/

namespace NgFile

open Syntax ScriptItem

/-! ## Imports of component files -/

namespace Syntax.Stmt

/-- An import of a component file whose default binding is a name. -/
inductive BindsComponent (script : Text) : Stmt → Text → Prop
  | intro (loc : Loc) {decl : ImportDecl} {clause : ImportClause} {name : Name}
      (hclause : decl.clause = some clause) (hdefault : clause.default = some name)
      (hsource : fileExtension <:+ decl.source.value.text) (hname : name.loc.text script ≠ []) :
      BindsComponent script (.importDecl loc decl) (name.loc.text script)

/-- An import of which nothing is left when types are erased. -/
inductive IsTypeImport : Stmt → Prop
  | intro (loc : Loc) {decl : ImportDecl} (htype : decl.isType = true) :
      IsTypeImport (.importDecl loc decl)

def isTypeImport : Stmt → Bool
  | .importDecl _ decl => decl.isType
  | _ => false

def BindsComponentValue (script : Text) (s : Stmt) (name : Text) : Prop :=
  s.BindsComponent script name ∧ ¬ s.IsTypeImport

variable {script : Text} {s : Stmt} {name name' : Text}

theorem isTypeImport_iff : s.isTypeImport = true ↔ s.IsTypeImport := by
  constructor
  · intro h
    cases s with
    | importDecl loc decl => exact .intro loc h
    | _ => cases h
  · rintro ⟨-, htype⟩
    exact htype

instance : DecidablePred IsTypeImport := fun _ => decidable_of_iff _ isTypeImport_iff

theorem BindsComponent.unique (h : s.BindsComponent script name)
    (h' : s.BindsComponent script name') : name = name' := by
  obtain ⟨loc, hclause, hdefault, -, -⟩ := h
  obtain ⟨_, hclause', hdefault', -, -⟩ := h'
  cases hclause.symm.trans hclause'
  cases hdefault.symm.trans hdefault'
  rfl

end Syntax.Stmt

/-! ## Picking under a condition -/

section Picking

variable {α β : Type} {R : α → β → Prop} {keep : α → Prop} {as : List α} {bs cs : List β}

theorem Picks.sublist (hunique : ∀ a b b', R a b → R a b' → b = b')
    (h : Picks (fun a b => R a b ∧ keep a) as cs) (hall : Picks R as bs) :
    cs.Sublist bs := by
  induction hall generalizing cs with
  | nil =>
      cases h
      exact List.Sublist.refl []
  | take hR _ ih =>
      cases h with
      | take hkept hrest =>
          rw [hunique _ _ _ hkept.1 hR]
          exact (ih hrest).cons_cons _
      | skip _ hrest => exact (ih hrest).cons _
  | skip hnone _ ih =>
      cases h with
      | take hkept _ => exact absurd hkept.1 (hnone _)
      | skip _ hrest => exact ih hrest

/-- Nothing is lost to a condition exactly if all that is related to something meets it. -/
theorem Picks.and_iff (hunique : ∀ a b b', R a b → R a b' → b = b') (hall : Picks R as bs) :
    Picks (fun a b => R a b ∧ keep a) as bs ↔ ∀ a ∈ as, ∀ b, R a b → keep a := by
  constructor
  · intro h
    induction hall with
    | nil => simp
    | @take a b as bs hR hall ih =>
        cases h with
        | take hkept hrest =>
            exact List.forall_mem_cons.2 ⟨fun _ _ => hkept.2, ih hrest⟩
        | skip _ hrest =>
            have hlength := (Picks.sublist hunique hrest hall).length_le
            exact absurd hlength (by simp)
    | skip hnone _ ih =>
        cases h with
        | take hkept _ => exact absurd hkept.1 (hnone _)
        | skip _ hrest =>
            exact List.forall_mem_cons.2 ⟨fun b hb => absurd hb (hnone b), ih hrest⟩
  · intro h
    induction hall with
    | nil => exact .nil
    | take hR _ ih =>
        obtain ⟨hkeep, hrest⟩ := List.forall_mem_cons.1 h
        exact .take ⟨hR, hkeep _ hR⟩ (ih hrest)
    | skip hnone _ ih =>
        exact .skip (fun b hb => hnone b hb.1) (ih (List.forall_mem_cons.1 h).2)

end Picking

/-! ## The items of imports -/

section Items

variable {script : Text} {s : Stmt} {item : ScriptItem} {statements : List Stmt}
variable {items : List ScriptItem}

theorem componentName?_of_itemOf (h : ItemOf script s item) (name : Text) :
    item.componentName? = some name ↔ s.BindsComponent script name := by
  by_cases himport : ∃ loc decl, s = .importDecl loc decl
  · obtain ⟨loc, decl, rfl⟩ := himport
    rw [itemOf_unique h (.importDecl rfl)]
    constructor
    · intro h
      cases hclause : decl.clause with
      | none => simp [componentName?, hclause] at h
      | some clause =>
          cases hdefault : clause.default with
          | none => simp [componentName?, hclause, hdefault] at h
          | some binding =>
              cases hsource : Text.finishesWith fileExtension decl.source.value.text with
              | false => simp [componentName?, hclause, hdefault, hsource] at h
              | true =>
                  obtain ⟨hne, rfl⟩ : binding.loc.text script ≠ [] ∧
                      binding.loc.text script = name := by
                    simpa [componentName?, hclause, hdefault, hsource] using h
                  exact .intro loc hclause hdefault (Text.finishesWith_iff.1 hsource) hne
    · intro h
      cases h with
      | intro _ hclause hdefault hsource hne =>
          simp [componentName?, hclause, hdefault, Text.finishesWith_iff.2 hsource, hne]
  · have hnone : item.componentName? = none := by
      cases h with
      | importDecl h => exact absurd ⟨_, _, h⟩ himport
      | _ => rfl
    rw [hnone]
    refine ⟨fun h => (by cases h), fun h => ?_⟩
    cases h with
    | intro loc _ _ _ _ => exact absurd ⟨loc, _, rfl⟩ himport

theorem importTexts_of_itemOf {name : Text} (h : ItemOf script s item)
    (hs : s.BindsComponent script name) :
    (Contribution.ofItem item).importTexts = [terminated (s.loc.text script)] := by
  cases hs with
  | intro loc _ _ _ _ =>
      rw [itemOf_unique h (.importDecl rfl)]
      rfl

/-- The names of the items of statements are those that the statements bind. -/
theorem picks_componentName? (h : List.Forall₂ (ItemOf script) statements items) :
    Picks (Stmt.BindsComponent script) statements (items.filterMap componentName?) := by
  induction h with
  | nil => exact .nil
  | @cons s item statements items hitem _ ih =>
      cases hname : item.componentName? with
      | none =>
          rw [List.filterMap_cons_none hname]
          refine .skip (fun name hs => ?_) ih
          rw [(componentName?_of_itemOf hitem name).2 hs] at hname
          cases hname
      | some name =>
          rw [List.filterMap_cons_some hname]
          exact .take ((componentName?_of_itemOf hitem name).1 hname) ih

theorem importTexts_of_items (h : List.Forall₂ (ItemOf script) statements items) {name : Text}
    (hmem : s ∈ statements) (hs : s.BindsComponent script name) :
    terminated (s.loc.text script) ∈
      items.flatMap fun item => (Contribution.ofItem item).importTexts := by
  induction h with
  | nil => cases hmem
  | cons hitem _ ih =>
      rw [List.flatMap_cons, List.mem_append]
      rcases List.mem_cons.1 hmem with rfl | hmem
      · rw [importTexts_of_itemOf hitem hs]
        exact .inl List.mem_cons_self
      · exact .inr (ih hmem)

end Items

/-! ## The imports of a component -/

/-- What becomes of the value under `imports` when names are added: a literal with the names at
its end, or the value itself, if there are no names or if it is not a literal. -/
inductive GainsNames (names : List Text) : Option Text → Option Text → Prop
  | fresh : GainsNames names none (some (arrayLiteral names))
  | literal {text : Text} {elements : List Text} (harray : IsArrayOf text elements)
      (hnames : names ≠ []) :
      GainsNames names (some text) (some (arrayLiteral (elements ++ names)))
  | unchanged {text : Text} (h : names = [] ∨ ∀ elements, ¬ IsArrayOf text elements) :
      GainsNames names (some text) (some text)

theorem gainsNames_importsWith (names : List Text) (value : Option Text) :
    GainsNames names value (importsWith value names) := by
  cases value with
  | none => exact .fresh
  | some text =>
      by_cases hnames : names = []
      · rw [hnames, importsWith_nil]
        exact .unchanged (.inl rfl)
      · by_cases harray : ∃ elements, IsArrayOf text elements
        · obtain ⟨elements, harray⟩ := harray
          rw [importsWith_array harray hnames]
          exact .literal harray hnames
        · rw [importsWith_other (not_exists.1 harray)]
          exact .unchanged (.inr (not_exists.1 harray))

namespace Target

theorem kind_of_ofScaffold {file scaffold : Text} {kind : EntityKind} {t : Target}
    (h : ofScaffold file scaffold kind = .ok t) : t.kind = kind := by
  unfold ofScaffold ofStatements at h
  repeat' split at h
  all_goals cases h
  rfl

theorem importTexts_aggregateImports (t : Target) (names : List Text) :
    (t.aggregateImports names).importTexts = t.importTexts := by
  unfold aggregateImports
  split
  · rfl
  · dsimp only
    split <;> rfl

variable {source : SourceFile} {sections : Sections} {program : Program} {t : Target}

/--
A component with a script gains the default bindings of the imports of component files, in
their order and whatever their kind, and has all these imports.  All of the names are names of
values exactly if none of these imports is type-only.
-/
theorem imports_of_program (ht : targetOf source = .ok t)
    (hsections : Sections.extract source = .ok sections) (htemplate : sections.template ≠ [])
    (hparse : Program.parse sections.script = .ok program) (hscript : sections.script ≠ []) :
    ∃ identifier base items names,
      Names.componentIdentifier? source.fileName = some identifier ∧
      scaffoldTarget source.fileName identifier sections = .ok base ∧
      classify source.fileName sections.script = .ok items ∧
      Picks (Stmt.BindsComponent sections.script) program.body names ∧
      GainsNames names (base.promote items).imports? t.imports? ∧
      (∀ s ∈ program.body, ∀ name, s.BindsComponent sections.script name →
        terminated (s.loc.text sections.script) ∈ t.importTexts) ∧
      (Picks (Stmt.BindsComponentValue sections.script) program.body names ↔
        ∀ s ∈ program.body, ∀ name, s.BindsComponent sections.script name →
          ¬ s.IsTypeImport) := by
  obtain ⟨identifier, sections', base, items?, hidentifier, hsections', hbase, hitems, rfl⟩ :=
    exists_of_targetOf_ok ht
  cases hsections.symm.trans hsections'
  obtain ⟨items, hclassify, rfl⟩ : ∃ items, classify source.fileName sections.script = .ok items ∧
      items? = some items := by
    rw [scriptItems?, List.isEmpty_eq_false_iff.2 hscript] at hitems
    cases hclassify : classify source.fileName sections.script with
    | error e =>
        rw [hclassify] at hitems
        cases hitems
    | ok items =>
        rw [hclassify] at hitems
        cases hitems
        exact ⟨items, rfl, rfl⟩
  have hstatements := (classify_eq_ok_iff hparse).1 hclassify
  have hkind : (base.promote items).kind = .component := by
    rw [(evolves_promote base items).kind, kind_of_ofScaffold hbase, EntityKind.ofTemplate,
      List.isEmpty_eq_false_iff.2 htemplate]
    rfl
  -- The names come from the statements alone; what they add depends on the value in place.
  have hpicks := picks_componentName? hstatements
  refine ⟨identifier, base, items, _, hidentifier, hbase, hclassify, hpicks, ?_, ?_,
    hpicks.and_iff fun _ _ _ => Stmt.BindsComponent.unique⟩
  · have hvalue := imports?_aggregateImports hkind (componentImports items)
    rw [recorded, filter_componentImports] at hvalue
    rw [withScript, hvalue]
    exact gainsNames_importsWith _ _
  · intro s hs name hbinds
    rw [withScript, importTexts_aggregateImports, promote_eq_append]
    exact List.mem_append_right _ (importTexts_of_items hstatements hs hbinds)

/-- Of five imports the default bindings of two component files are added, one of them erased. -/
theorem imports_of_program_card :
    let script : Text := "import A, \x7b b \x7d from './a.ng'; import type B from './b.ng'; " ++
      "import * as C from './c.ng'; import './d.ng'; import E from 'e'; " ++
      "defineMetadata(\x7b imports: [E] \x7d);"
    let source : SourceFile :=
      ⟨"card.ng", "<script lang=\x22ts\x22>" ++ script ++ "</script><template>x</template>"⟩
    ∃ t program names before,
      targetOf source = .ok t ∧ Program.parse script = .ok program ∧
      Picks (Stmt.BindsComponent script) program.body names ∧
      GainsNames names before t.imports? ∧ t.imports? = some "[E, A, B]" := by
  intro script source
  have himports : (targetOf source).toOption.bind imports? = some "[E, A, B]" := by decide +kernel
  have hsections : Sections.extract source = .ok ⟨script, "x", []⟩ := by decide +kernel
  cases ht : targetOf source with
  | error e =>
      rw [ht] at himports
      cases himports
  | ok t =>
      cases hparse : Program.parse script with
      | error e =>
          have hparses : (Program.parse script).isOk = true := by decide +kernel
          rw [hparse] at hparses
          cases hparses
      | ok program =>
          obtain ⟨_, base, items, names, -, -, -, hpicks, hgains, -, -⟩ :=
            imports_of_program ht hsections (by decide) hparse (by decide)
          rw [ht] at himports
          exact ⟨t, program, names, _, rfl, rfl, hpicks, hgains, himports⟩

/-- The name of a type-only import is all that a component imports, and it names no value. -/
theorem imports_of_type_import :
    let script : Text := "import type X from './x.ng';"
    let source : SourceFile :=
      ⟨"card.ng", "<script lang=\x22ts\x22>" ++ script ++ "</script><template>x</template>"⟩
    ∃ t program,
      targetOf source = .ok t ∧ t.kind = .component ∧ Program.parse script = .ok program ∧
      t.imports? = some "[X]" ∧
      ∀ s ∈ program.body, ∀ name, ¬ s.BindsComponentValue script name := by
  intro script source
  have hcomponent : (targetOf source).toOption.map (fun t => (t.kind, t.imports?)) =
      some (EntityKind.component, some "[X]".toList) := by
    decide +kernel
  have htypes : (Program.parse script).toOption.map (fun program =>
      program.body.map Stmt.isTypeImport) = some [true] := by
    decide +kernel
  cases ht : targetOf source with
  | error e =>
      rw [ht] at hcomponent
      cases hcomponent
  | ok t =>
      rw [ht] at hcomponent
      obtain ⟨hkind, himports⟩ := Prod.mk.inj (Option.some.inj hcomponent)
      cases hparse : Program.parse script with
      | error e =>
          rw [hparse] at htypes
          cases htypes
      | ok program =>
          rw [hparse] at htypes
          obtain ⟨s, hbody, htype⟩ := List.map_eq_singleton_iff.1 (Option.some.inj htypes)
          refine ⟨t, program, rfl, hkind, rfl, himports, fun s' hs' name h => ?_⟩
          rw [hbody, List.mem_singleton] at hs'
          subst hs'
          exact h.2 (Stmt.isTypeImport_iff.1 htype)

end Target

end NgFile
