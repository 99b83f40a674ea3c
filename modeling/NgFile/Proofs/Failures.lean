import NgFile.Compile
import NgFile.Proofs.Edits

/-!
# How compilations fail

Every stage of a compilation has errors of its own: a failure of the whole is a failure
of one stage, and from its error one can tell which.  A target keeps the name of its file
through all stages, so every error carries the name of the file that was compiled.
-/

namespace NgFile

namespace CompileError

inductive IsScaffoldCheck : CompileError → Prop
  | missingSourceFile (file reason : Text) : IsScaffoldCheck (.missingSourceFile file reason)
  | missingClass (file : Text) : IsScaffoldCheck (.missingClass file)
  | missingDecorator (file : Text) : IsScaffoldCheck (.missingDecorator file)
  | invalidMetadataArguments (file : Text) : IsScaffoldCheck (.invalidMetadataArguments file)
  | invalidConstructorBody (file : Text) : IsScaffoldCheck (.invalidConstructorBody file)

inductive IsScriptError : CompileError → Prop
  | scriptSyntax (file reason : Text) : IsScriptError (.scriptSyntax file reason)
  | unsupportedDeclaration (file detail : Text) :
      IsScriptError (.unsupportedDeclaration file detail)
  | invalidDefineMetadata (file detail : Text) :
      IsScriptError (.invalidDefineMetadata file detail)

inductive IsOutputSyntax : CompileError → Prop
  | outputSyntax (file reason : Text) : IsOutputSyntax (.outputSyntax file reason)

end CompileError

open CompileError

/-- Whether two outcomes are the same can be computed. -/
instance decidableEqOutcome {ε α : Type} [DecidableEq ε] [DecidableEq α] :
    DecidableEq (Except ε α)
  | .error e, .error e' => decidable_of_iff (e = e') ⟨congrArg _, Except.error.inj⟩
  | .ok a, .ok a' => decidable_of_iff (a = a') ⟨congrArg _, Except.ok.inj⟩
  | .error _, .ok _ => isFalse nofun
  | .ok _, .error _ => isFalse nofun

/-! ## Sequences and traversals -/

section Traversals

variable {α β ε : Type}

theorem exists_of_bind_ok {x : Except ε α} {f : α → Except ε β} {b : β}
    (h : x >>= f = .ok b) : ∃ a, x = .ok a ∧ f a = .ok b := by
  cases x with
  | error e => cases h
  | ok a => exact ⟨a, rfl, h⟩

theorem cases_of_bind_error {x : Except ε α} {f : α → Except ε β} {e : ε}
    (h : x >>= f = .error e) : x = .error e ∨ ∃ a, x = .ok a ∧ f a = .error e := by
  cases x with
  | error e' =>
      cases h
      exact .inl rfl
  | ok a => exact .inr ⟨a, rfl, h⟩

theorem error_of_map_error {x : Except ε α} {f : α → β} {e : ε} (h : x.map f = .error e) :
    x = .error e := by
  cases x with
  | error e' =>
      cases h
      rfl
  | ok a => cases h

theorem mapM_eq_ok_iff {f : α → Except ε β} {xs : List α} {ys : List β} :
    xs.mapM f = .ok ys ↔ List.Forall₂ (fun x y => f x = .ok y) xs ys := by
  induction xs generalizing ys with
  | nil =>
      rw [List.forall₂_nil_left_iff]
      exact ⟨fun h => (Except.ok.inj h).symm, fun h => by rw [h]; rfl⟩
  | cons x xs ih =>
      rw [List.mapM_cons]
      constructor
      · intro h
        obtain ⟨y, hx, h⟩ := exists_of_bind_ok h
        obtain ⟨ys', hxs, h⟩ := exists_of_bind_ok h
        cases h
        exact .cons hx (ih.1 hxs)
      · intro h
        cases h with
        | cons hx hxs =>
            rw [hx, ih.2 hxs]
            rfl

theorem exists_mapM_ok_iff {f : α → Except ε β} {xs : List α} :
    (∃ ys, xs.mapM f = .ok ys) ↔ ∀ x ∈ xs, ∃ y, f x = .ok y := by
  simp only [mapM_eq_ok_iff]
  induction xs with
  | nil => simp
  | cons x xs ih =>
      rw [List.forall_mem_cons, ← ih]
      constructor
      · rintro ⟨ys, hys⟩
        obtain ⟨y, ys, hx, hxs, rfl⟩ := List.forall₂_cons_left_iff.1 hys
        exact ⟨⟨y, hx⟩, ys, hxs⟩
      · rintro ⟨⟨y, hx⟩, ys, hxs⟩
        exact ⟨y :: ys, .cons hx hxs⟩

/-- A traversal fails with the error of the first element that has one. -/
theorem mapM_eq_error_iff {f : α → Except ε β} {xs : List α} {e : ε} :
    xs.mapM f = .error e ↔
      ∃ front x rest, xs = front ++ x :: rest ∧ (∀ y ∈ front, ∃ b, f y = .ok b) ∧
        f x = .error e := by
  induction xs with
  | nil => exact ⟨nofun, fun ⟨front, x, rest, h, _⟩ => by simp at h⟩
  | cons x xs ih =>
      rw [List.mapM_cons]
      constructor
      · intro h
        rcases cases_of_bind_error h with hx | ⟨y, hx, h⟩
        · exact ⟨[], x, xs, rfl, nofun, hx⟩
        · rcases cases_of_bind_error h with hxs | ⟨ys, _, h⟩
          · obtain ⟨front, x', rest, rfl, hfront, hx'⟩ := ih.1 hxs
            exact ⟨x :: front, x', rest, rfl, List.forall_mem_cons.2 ⟨⟨y, hx⟩, hfront⟩, hx'⟩
          · cases h
      · rintro ⟨front, x', rest, h, hfront, hx'⟩
        cases front with
        | nil =>
            cases h
            rw [hx']
            rfl
        | cons z front =>
            cases h
            obtain ⟨⟨y, hy⟩, hfront⟩ := List.forall_mem_cons.1 hfront
            rw [hy, ih.2 ⟨front, x', rest, rfl, hfront, hx'⟩]
            rfl

theorem exists_of_mapM_error {f : α → Except ε β} {xs : List α} {e : ε}
    (h : xs.mapM f = .error e) : ∃ x ∈ xs, f x = .error e := by
  obtain ⟨front, x, rest, rfl, _, hx⟩ := mapM_eq_error_iff.1 h
  exact ⟨x, by simp, hx⟩

/-- The results of a traversal are results of its elements. -/
theorem exists_of_mem_mapM_ok {f : α → Except ε β} {xs : List α} {ys : List β}
    (h : xs.mapM f = .ok ys) {y : β} (hy : y ∈ ys) : ∃ x ∈ xs, f x = .ok y := by
  have hresults := mapM_eq_ok_iff.1 h
  induction hresults with
  | nil => cases hy
  | cons hx hrest ih =>
      rcases List.mem_cons.1 hy with rfl | hy
      · exact ⟨_, List.mem_cons_self, hx⟩
      · obtain ⟨x, hmem, hx⟩ := ih (mapM_eq_ok_iff.2 hrest) hy
        exact ⟨x, List.mem_cons_of_mem _ hmem, hx⟩

end Traversals

/-! ## Scaffolds -/

variable {file source scaffold : Text} {kind : EntityKind} {e : CompileError}

theorem TargetClass.check_of_ofClass {c : Syntax.Class}
    (h : TargetClass.ofClass file source kind c = .error e) :
    IsScaffoldCheck e ∧ e.file = file := by
  unfold TargetClass.ofClass at h
  repeat' split at h
  all_goals cases h
  all_goals exact ⟨by constructor, rfl⟩

/-- A scaffold that is not lifted fails one of the checks on it, under its file's name. -/
theorem Target.check_of_ofScaffold (h : Target.ofScaffold file scaffold kind = .error e) :
    IsScaffoldCheck e ∧ e.file = file := by
  unfold Target.ofScaffold at h
  split at h
  · cases h
    exact ⟨by constructor, rfl⟩
  · unfold Target.ofStatements at h
    split at h
    · rename_i herror
      cases h
      obtain ⟨c, _, hc⟩ := exists_of_mapM_error herror
      exact TargetClass.check_of_ofClass hc
    · split at h <;> cases h
      exact ⟨by constructor, rfl⟩

theorem Target.fileName_of_ofScaffold {t : Target}
    (h : Target.ofScaffold file scaffold kind = .ok t) : t.fileName = file := by
  unfold Target.ofScaffold Target.ofStatements at h
  repeat' split at h
  all_goals cases h
  rfl

/-! ## Scripts -/

namespace ScriptItem

open Syntax

theorem isScriptError_of_ofVariables {loc : Loc} {keyword : VariableKind}
    {bindings : List Binding} (h : ofVariables file source loc keyword bindings = .error e) :
    IsScriptError e := by
  unfold ofVariables at h
  repeat' split at h
  all_goals cases h
  all_goals constructor

theorem isScriptError_of_ofFunction {loc : Loc} {function : Func}
    (h : ofFunction file source loc function = .error e) : IsScriptError e := by
  unfold ofFunction at h
  split at h <;> cases h
  constructor

theorem isScriptError_of_ofProperty {property : Property}
    (h : ofProperty file source property = .error e) : IsScriptError e := by
  unfold ofProperty at h
  repeat' split at h
  all_goals cases h
  all_goals constructor

theorem isScriptError_of_ofMetadataCall {args : List Expr}
    (h : ofMetadataCall file source args = .error e) : IsScriptError e := by
  unfold ofMetadataCall at h
  split at h
  · obtain ⟨property, _, hproperty⟩ := exists_of_mapM_error h
    exact isScriptError_of_ofProperty hproperty
  · cases h
    constructor

theorem isScriptError_of_ofCall {loc : Loc} {callee : Expr} {args : List Expr}
    (h : ofCall file source loc callee args = .error e) : IsScriptError e := by
  unfold ofCall at h
  dsimp only at h
  split at h
  · exact isScriptError_of_ofMetadataCall (error_of_map_error h)
  · repeat' split at h
    all_goals cases h

theorem isScriptError_of_ofStatement {statement : Stmt}
    (h : ofStatement file source statement = .error e) : IsScriptError e := by
  unfold ofStatement at h
  split at h
  · cases h
  · exact isScriptError_of_ofVariables h
  · split at h
    · exact isScriptError_of_ofFunction h
    · cases h
  · split at h
    · exact isScriptError_of_ofVariables h
    · split at h
      · exact isScriptError_of_ofFunction h
      · cases h
    · cases h
  · exact isScriptError_of_ofCall h
  · cases h

/-- A script that is not classified has an error of its own. -/
theorem isScriptError_of_classify {script : Text} (h : classify file script = .error e) :
    IsScriptError e := by
  unfold classify at h
  split at h
  · cases h
    constructor
  · obtain ⟨statement, _, hstatement⟩ := exists_of_mapM_error h
    exact isScriptError_of_ofStatement hstatement

end ScriptItem

theorem isScriptError_of_scriptItems? {script : Text} (h : scriptItems? file script = .error e) :
    IsScriptError e := by
  unfold scriptItems? at h
  split at h
  · cases h
  · exact ScriptItem.isScriptError_of_classify (error_of_map_error h)

/-! ## Formatting -/

theorem Formatting.eq_outputSyntax_of_reprint {text : Text}
    (h : Formatting.reprint file text = .error e) : ∃ reason, e = .outputSyntax file reason := by
  unfold Formatting.reprint at h
  split at h
  · cases h
    exact ⟨_, rfl⟩
  · cases h

/-- Formatting only fails because the output is not a script. -/
theorem Target.eq_outputSyntax_of_format {t : Target} (h : t.format = .error e) :
    ∃ reason, e = .outputSyntax t.fileName reason := by
  unfold Target.format at h
  rcases cases_of_bind_error h with hbody | ⟨body, _, h⟩
  · exact Formatting.eq_outputSyntax_of_reprint hbody
  · rcases cases_of_bind_error h with hdecorator | ⟨decorator, _, h⟩
    · exact Formatting.eq_outputSyntax_of_reprint hdecorator
    · split at h
      · cases h
      · cases h
        exact ⟨_, rfl⟩

/-! ## Whole compilations -/

theorem Target.evolves_withScript (t : Target) (items : Option (List ScriptItem)) :
    t.Evolves (t.withScript items) := by
  cases items with
  | none => exact .refl t
  | some items => exact (evolves_promote t items).trans (evolves_aggregateImports _ _)

theorem isScaffoldCheck_of_scaffoldTarget {identifier : Text} {sections : Sections}
    (h : scaffoldTarget file identifier sections = .error e) : IsScaffoldCheck e := by
  unfold scaffoldTarget at h
  exact (Target.check_of_ofScaffold h).1

theorem file_of_scaffoldTarget {identifier : Text} {sections : Sections}
    (h : scaffoldTarget file identifier sections = .error e) : e.file = file := by
  unfold scaffoldTarget at h
  exact (Target.check_of_ofScaffold h).2

theorem fileName_of_scaffoldTarget {identifier : Text} {sections : Sections} {t : Target}
    (h : scaffoldTarget file identifier sections = .ok t) : t.fileName = file := by
  unfold scaffoldTarget at h
  exact Target.fileName_of_ofScaffold h

variable {input : SourceFile} {t : Target} {options : CompileOptions}

theorem extract_eq_error_iff :
    Sections.extract input = .error e ↔
      (Sections.ofContent input.content).script = [] ∧
        (Sections.ofContent input.content).template = [] ∧ e = .missingSections input.fileName := by
  unfold Sections.extract
  dsimp only
  split
  · rename_i hempty
    rw [Bool.and_eq_true, List.isEmpty_iff, List.isEmpty_iff] at hempty
    exact ⟨fun h => ⟨hempty.1, hempty.2, (Except.error.inj h).symm⟩, fun h => by rw [h.2.2]⟩
  · rename_i hsections
    exact ⟨nofun, fun h => absurd (by simp [h.1, h.2.1]) hsections⟩

/-- What a target is made from: an identifier, sections, a lifted scaffold and a script. -/
theorem exists_of_targetOf_ok (h : targetOf input = .ok t) :
    ∃ identifier sections base items,
      Names.componentIdentifier? input.fileName = some identifier ∧
      Sections.extract input = .ok sections ∧
      scaffoldTarget input.fileName identifier sections = .ok base ∧
      scriptItems? input.fileName sections.script = .ok items ∧
      t = base.withScript items := by
  unfold targetOf at h
  split at h
  · cases h
  · rename_i identifier hidentifier
    obtain ⟨sections, hsections, h⟩ := exists_of_bind_ok h
    obtain ⟨base, hbase, h⟩ := exists_of_bind_ok h
    obtain ⟨items, hitems, h⟩ := exists_of_bind_ok h
    cases h
    exact ⟨identifier, sections, base, items, hidentifier, hsections, hbase, hitems, rfl⟩

/-- How a target is not made: one stage fails, and all stages before it pass. -/
inductive StopsWith (input : SourceFile) : CompileError → Prop
  | name (hname : Names.componentIdentifier? input.fileName = none) :
      StopsWith input (.missingComponentName input.fileName)
  | sections {identifier : Text}
      (hname : Names.componentIdentifier? input.fileName = some identifier)
      (hscript : (Sections.ofContent input.content).script = [])
      (htemplate : (Sections.ofContent input.content).template = []) :
      StopsWith input (.missingSections input.fileName)
  | scaffold {identifier : Text} {sections : Sections} {e : CompileError}
      (hname : Names.componentIdentifier? input.fileName = some identifier)
      (hsections : Sections.extract input = .ok sections)
      (h : scaffoldTarget input.fileName identifier sections = .error e) :
      StopsWith input e
  | script {identifier : Text} {sections : Sections} {base : Target} {e : CompileError}
      (hname : Names.componentIdentifier? input.fileName = some identifier)
      (hsections : Sections.extract input = .ok sections)
      (hbase : scaffoldTarget input.fileName identifier sections = .ok base)
      (h : scriptItems? input.fileName sections.script = .error e) :
      StopsWith input e

theorem targetOf_eq_error_iff : targetOf input = .error e ↔ StopsWith input e := by
  constructor
  · intro h
    unfold targetOf at h
    split at h
    · rename_i hname
      cases h
      exact .name hname
    · rename_i identifier hname
      rcases cases_of_bind_error h with hsections | ⟨sections, hsections, h⟩
      · obtain ⟨hscript, htemplate, rfl⟩ := extract_eq_error_iff.1 hsections
        exact .sections hname hscript htemplate
      · rcases cases_of_bind_error h with hbase | ⟨base, hbase, h⟩
        · exact .scaffold hname hsections hbase
        · rcases cases_of_bind_error h with hitems | ⟨items, _, h⟩
          · exact .script hname hsections hbase hitems
          · cases h
  · intro h
    cases h with
    | name hname => simp [targetOf, hname]
    | sections hname hscript htemplate =>
        have hsections := extract_eq_error_iff.2 ⟨hscript, htemplate, rfl⟩
        simp [targetOf, hname, hsections, bind, Except.bind]
    | scaffold hname hsections h => simp [targetOf, hname, hsections, h, bind, Except.bind]
    | script hname hsections hbase h =>
        simp [targetOf, hname, hsections, hbase, h, bind, Except.bind]

theorem not_isOutputSyntax_of_targetOf (h : targetOf input = .error e) : ¬ IsOutputSyntax e := by
  rintro ⟨file, reason⟩
  cases targetOf_eq_error_iff.1 h with
  | scaffold hname hsections h => cases isScaffoldCheck_of_scaffoldTarget h
  | script hname hsections hbase h => cases isScriptError_of_scriptItems? h

theorem fileName_of_targetOf (h : targetOf input = .ok t) : t.fileName = input.fileName := by
  obtain ⟨identifier, sections, base, items, _, _, hbase, _, rfl⟩ := exists_of_targetOf_ok h
  rw [(Target.evolves_withScript base items).fileName]
  exact fileName_of_scaffoldTarget hbase

theorem isOutputSyntax_of_serialize {isProd : Bool} (h : t.serialize isProd = .error e) :
    IsOutputSyntax e := by
  unfold Target.serialize at h
  split at h
  · cases h
  · obtain ⟨reason, rfl⟩ := Target.eq_outputSyntax_of_format h
    constructor

theorem compile_of_targetOf_error (h : targetOf input = .error e) :
    compile input options = .error e := by
  simp [compile, bind, Except.bind, h]

theorem compile_of_targetOf_ok (h : targetOf input = .ok t) :
    compile input options = t.serialize options.isProd := by
  simp [compile, bind, Except.bind, h]

end NgFile
