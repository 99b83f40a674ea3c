import NgFile.Proofs.Classification
import NgFile.Proofs.Identifier

/-!
# The names of the members

Promotion makes members of a class out of what a script declares, and out of its hooks, which
bring two names of their own.  Of two members with one name the later one would replace the
other, so names matter as the language reads them, with their escapes.  Whether the members have
distinct names depends on the declared names, on how many hooks there are, and on whether a
declared name is one of the two that hooks bring.
-/

namespace NgFile

open Syntax ScriptItem

/-! ## Names of members and declarations -/

/-- A name as the language reads it: with its escapes read. -/
def spelledName (t : Text) : Text :=
  ((Literal.wholeName? t).map Literal.Name.text).getD t

/-- The names of the members of a class, those of the properties first. -/
def TargetClass.memberNames (c : TargetClass) : List Text :=
  (c.properties.map ClassProperty.name ++ c.methods.map ClassMethod.name).map spelledName

namespace Syntax.Stmt

/-- The name that a declaration promotes: of a variable with a value, or a function with a body. -/
def promotedName? (script : Text) (s : Stmt) : Option Text :=
  match s.declared with
  | .variableDecl _ _ _ [b] =>
      match b.pattern, b.value with
      | .name name, some _ => some (name.loc.text script)
      | _, _ => none
  | .function _ _ f => if f.hasBody then f.name.map fun name => name.loc.text script else none
  | _ => none

/-- Whether a statement gives a hook: a call of its function with a single arrow function. -/
def isHook (script : Text) (s : Stmt) : Bool :=
  match s.call? with
  | some (callee, [.arrow _ _ _]) => callee.loc.text script = hookFunction
  | _ => false

end Syntax.Stmt

def Syntax.Program.promotedNames (script : Text) (program : Program) : List Text :=
  (program.body.filterMap (Stmt.promotedName? script)).map spelledName

def Syntax.Program.hookCount (script : Text) (program : Program) : Nat :=
  program.body.countP (Stmt.isHook script)

/-! ## From statements to items -/

namespace Syntax.Stmt

variable {script : Text} {s : Stmt}

theorem isHook_of_no_call (h : s.call? = none) : s.isHook script = false := by
  simp [isHook, h]

theorem promotedName?_of_call {call : Expr × List Expr} (h : s.call? = some call) :
    s.promotedName? script = none := by
  obtain ⟨_, _, _, _, _, rfl⟩ := exists_of_call? h
  rfl

theorem promotedName?_of_isIgnored (h : s.IsIgnored) : s.promotedName? script = none := by
  unfold promotedName?
  split
  · rename_i hvariables
    exact absurd hvariables (h.not_variables _ _ _ _)
  · rename_i hfunction
    exact absurd hfunction (h.not_function _ _ _)
  · rfl

end Syntax.Stmt

namespace ScriptItem

def promotedName? : ScriptItem → Option Text
  | variableDecl _ name _ _ | functionDecl name _ => some name
  | _ => none

def isHook : ScriptItem → Bool
  | onInit _ _ => true
  | _ => false

variable {script : Text} {s : Stmt} {item : ScriptItem}

theorem promotedName?_of_itemOf (h : ItemOf script s item) :
    item.promotedName? = s.promotedName? script := by
  cases h with
  | importDecl h =>
      subst h
      rfl
  | initialized h hname hvalue => simp [promotedName?, Stmt.promotedName?, h, hname, hvalue]
  | uninitialized h hname hvalue => simp [promotedName?, Stmt.promotedName?, h, hname, hvalue]
  | function h hbody hname => simp [promotedName?, Stmt.promotedName?, h, hbody, hname]
  | bodiless h hbody => simp [promotedName?, Stmt.promotedName?, h, hbody]
  | metadata h _ _ => exact (Stmt.promotedName?_of_call h).symm
  | hook h _ => exact (Stmt.promotedName?_of_call h).symm
  | call h _ _ => exact (Stmt.promotedName?_of_call h).symm
  | ignored h => exact (Stmt.promotedName?_of_isIgnored h).symm

theorem isHook_of_itemOf (h : ItemOf script s item) : item.isHook = s.isHook script := by
  cases h with
  | importDecl h =>
      subst h
      rfl
  | initialized h _ _ =>
      exact (Stmt.isHook_of_no_call (Stmt.call?_of_declared_variables h)).symm
  | uninitialized h _ _ =>
      exact (Stmt.isHook_of_no_call (Stmt.call?_of_declared_variables h)).symm
  | function h _ _ => exact (Stmt.isHook_of_no_call (Stmt.call?_of_declared_function h)).symm
  | bodiless h _ => exact (Stmt.isHook_of_no_call (Stmt.call?_of_declared_function h)).symm
  | metadata h _ _ => simp [isHook, Stmt.isHook, h]
  | hook h hname => simp [isHook, Stmt.isHook, h, hname]
  | call h _ hhook =>
      have hother : s.isHook script = false := by
        unfold Stmt.isHook
        rw [h]
        split
        · rename_i heq
          cases heq
          have hname : ¬ _ = hookFunction := fun hname => hhook hname _ _ _ rfl
          simp [hname]
        · rfl
      exact hother.symm
  | ignored h => exact (Stmt.isHook_of_no_call h.not_call).symm

theorem promotedNames_of_items {statements : List Stmt} {items : List ScriptItem}
    (h : List.Forall₂ (ItemOf script) statements items) :
    items.filterMap promotedName? = statements.filterMap (Stmt.promotedName? script) ∧
      items.countP isHook = statements.countP (Stmt.isHook script) := by
  induction h with
  | nil => exact ⟨rfl, rfl⟩
  | cons hitem _ ih =>
      constructor
      · simp only [List.filterMap_cons, promotedName?_of_itemOf hitem, ih.1]
      · simp only [List.countP_cons, isHook_of_itemOf hitem, ih.2]

end ScriptItem

/-! ## From items to members -/

section Members

variable {items : List ScriptItem}

/-- Without names to expose, the properties come from declarations, and one from each hook. -/
theorem propertyNames_perm
    (hexposes : ∀ e ∈ items.flatMap ScriptItem.metadataEntries, e.key ≠ Metadata.exposesKey) :
    ((items.flatMap fun i => (Contribution.ofItem i).properties).map ClassProperty.name).Perm
      (items.filterMap promotedName? ++ List.replicate (items.countP isHook) hookFunction) := by
  induction items with
  | nil => exact .nil
  | cons item rest ih =>
      simp only [List.flatMap_cons, List.mem_append] at hexposes
      have hrest := ih fun e he => hexposes e (.inr he)
      rw [List.flatMap_cons, List.map_append]
      cases item with
      | variableDecl keyword name declarator isFunction => exact hrest.cons name
      | functionDecl name text => exact hrest.cons name
      | onInit isAsync statements =>
          have hcount : (ScriptItem.onInit isAsync statements :: rest).countP isHook =
              rest.countP isHook + 1 :=
            List.countP_cons_of_pos rfl
          rw [hcount, List.replicate_succ]
          exact (hrest.cons hookFunction).trans List.perm_middle.symm
      | defineMetadata entries =>
          have hnone : (Contribution.ofItem (.defineMetadata entries)).properties = [] :=
            List.flatMap_eq_nil_iff.2 fun e he => if_neg (hexposes e (.inl he))
          rw [hnone]
          exact hrest
      | _ => exact hrest

theorem methodNames_eq (items : List ScriptItem) :
    (items.flatMap fun i => (Contribution.ofItem i).methods).map ClassMethod.name =
      List.replicate (items.countP isHook) hookMethod.name := by
  induction items with
  | nil => rfl
  | cons item rest ih =>
      rw [List.flatMap_cons, List.map_append, ih]
      cases item with
      | onInit isAsync statements =>
          have hcount : (ScriptItem.onInit isAsync statements :: rest).countP isHook =
              rest.countP isHook + 1 :=
            List.countP_cons_of_pos rfl
          rw [hcount, List.replicate_succ]
          rfl
      | _ => rfl

/-- A class without members gets those of the promoted names, and two for each hook. -/
theorem memberNames_promote {t : Target} (ht : t.entity.memberNames = [])
    (hexposes : ∀ e ∈ items.flatMap ScriptItem.metadataEntries, e.key ≠ Metadata.exposesKey) :
    (t.promote items).entity.memberNames.Perm
      ((items.filterMap promotedName?).map spelledName ++
        (List.replicate (items.countP isHook) hookFunction ++
          List.replicate (items.countP isHook) hookMethod.name)) := by
  have hproperties := Target.promote_part (fun t => t.entity.properties) Contribution.properties
    (fun _ _ => rfl) t items
  have hmethods := Target.promote_part (fun t => t.entity.methods) Contribution.methods
    (fun _ _ => rfl) t items
  have hempty : t.entity.properties = [] ∧ t.entity.methods = [] := by
    simpa [TargetClass.memberNames] using ht
  have hspelled : spelledName hookFunction = hookFunction ∧
      spelledName hookMethod.name = hookMethod.name := by
    decide
  rw [hempty.1, List.nil_append] at hproperties
  rw [hempty.2, List.nil_append] at hmethods
  rw [TargetClass.memberNames, hproperties, hmethods, methodNames_eq]
  refine (((propertyNames_perm hexposes).append_right _).map spelledName).trans ?_
  simp [List.append_assoc, hspelled]

theorem nodup_with_hooks {names : List Text} (hnames : names.Nodup) (n : Nat) :
    (names ++ (List.replicate n hookFunction ++ List.replicate n hookMethod.name)).Nodup ↔
      n ≤ 1 ∧ (0 < n → hookFunction ∉ names ∧ hookMethod.name ∉ names) := by
  have hne : hookFunction ≠ hookMethod.name := by decide
  match n with
  | 0 => simpa using hnames
  | 1 => simp [List.nodup_append, hnames, hne, forall_and, List.forall_mem_ne']
  | n + 2 =>
      have htwice : ¬ (List.replicate (n + 2) hookFunction).Nodup := by
        simp [List.nodup_replicate]
      constructor
      · intro h
        exact absurd (List.nodup_append.1 (List.nodup_append.1 h).2.1).1 htwice
      · intro h
        omega

end Members

section Scripts

variable {file script : Text} {program : Program} {items : List ScriptItem}
  (hparse : Program.parse script = .ok program) (hitems : classify file script = .ok items)

include hparse hitems

theorem promotedNames_eq :
    program.promotedNames script = (items.filterMap promotedName?).map spelledName ∧
      program.hookCount script = items.countP isHook := by
  obtain ⟨hnames, hcount⟩ := promotedNames_of_items ((classify_eq_ok_iff hparse).1 hitems)
  exact ⟨by rw [Program.promotedNames, hnames], hcount.symm⟩

/--
Members of a class that are made of a script whose promoted names are distinct, and that exposes
nothing, have distinct names exactly if there is at most one hook and, with a hook, no promoted
name is one of the two names that it brings.  A lifted scaffold is a class without members.
-/
theorem memberNames_nodup_iff (hnames : (program.promotedNames script).Nodup)
    (hexposes : ∀ e ∈ items.flatMap ScriptItem.metadataEntries, e.key ≠ Metadata.exposesKey) :
    let hooks := program.hookCount script
    let names := program.promotedNames script
    let fits := hooks ≤ 1 ∧ (0 < hooks → hookFunction ∉ names ∧ hookMethod.name ∉ names)
    (∀ t : Target, t.entity.memberNames = [] →
      ((t.promote items).entity.memberNames.Nodup ↔ fits)) ∧
    ∀ identifier, Lexeme.IsVerbatim identifier → ∀ template style kind,
      ∃ t, Target.ofScaffold file
          (Scaffold.synthesize (Names.ofIdentifier identifier) template style kind) kind = .ok t ∧
        ((t.promote items).entity.memberNames.Nodup ↔ fits) := by
  intro hooks names fits
  obtain ⟨hpromoted, hcount⟩ := promotedNames_eq hparse hitems
  have hall : ∀ t : Target, t.entity.memberNames = [] →
      ((t.promote items).entity.memberNames.Nodup ↔ fits) := by
    intro t ht
    rw [(memberNames_promote ht hexposes).nodup_iff, ← hpromoted, ← hcount]
    exact nodup_with_hooks hnames hooks
  refine ⟨hall, fun identifier hidentifier template style kind => ?_⟩
  have hselector := (Names.isVerbatim_selector_iff identifier).2 hidentifier
  exact ⟨_, Scaffold.ofScaffold_synthesize hselector file template style kind, hall _ rfl⟩

end Scripts

/-- A variable, a function and a hook with names of their own make four members. -/
theorem memberNames_nodup_iff_card :
    let script : Text :=
      "const count = 1; onInit(() => \x7b start(count); \x7d); function start(n) \x7b\x7d"
    ∃ program items t, Program.parse script = .ok program ∧
      classify "card.ng" script = .ok items ∧
      (program.promotedNames script).Nodup ∧
      (∀ e ∈ items.flatMap ScriptItem.metadataEntries, e.key ≠ Metadata.exposesKey) ∧
      Target.ofScaffold "card.ng"
        (Scaffold.synthesize (Names.ofIdentifier "card") [] [] .directive) .directive = .ok t ∧
      (t.promote items).entity.memberNames.Nodup := by
  intro script
  have hitems : classify "card.ng" script = .ok
      [.variableDecl "const" "count" "count = 1" false, .onInit false ["start(count);"],
        .functionDecl "start" "function start(n) \x7b\x7d"] := by
    decide +kernel
  obtain ⟨program, hprogram⟩ := exists_parse_of_classify hitems
  obtain ⟨hpromoted, hcount⟩ := promotedNames_eq hprogram hitems
  have hnames : (program.promotedNames script).Nodup := by
    rw [hpromoted]
    decide
  obtain ⟨t, hlift, hiff⟩ := (memberNames_nodup_iff hprogram hitems hnames (by decide)).2 "card"
    (by decide) [] [] .directive
  refine ⟨program, _, t, hprogram, hitems, hnames, by decide, hlift, hiff.2 ?_⟩
  rw [hpromoted, hcount]
  decide

/-- Two hooks bring the same two names, although the script declares no name twice. -/
theorem memberNames_of_two_hooks :
    let script : Text := "onInit(() => \x7b a(); \x7d); onInit(() => \x7b b(); \x7d);"
    ∃ program items t, Program.parse script = .ok program ∧
      classify "card.ng" script = .ok items ∧
      (program.promotedNames script).Nodup ∧
      (∀ e ∈ items.flatMap ScriptItem.metadataEntries, e.key ≠ Metadata.exposesKey) ∧
      Target.ofScaffold "card.ng"
        (Scaffold.synthesize (Names.ofIdentifier "card") [] [] .directive) .directive = .ok t ∧
      ¬ (t.promote items).entity.memberNames.Nodup := by
  intro script
  have hitems : classify "card.ng" script =
      .ok [.onInit false ["a();"], .onInit false ["b();"]] := by
    decide +kernel
  obtain ⟨program, hprogram⟩ := exists_parse_of_classify hitems
  obtain ⟨hpromoted, -⟩ := promotedNames_eq hprogram hitems
  have hnames : (program.promotedNames script).Nodup := by
    rw [hpromoted]
    decide
  have hselector := (Names.isVerbatim_selector_iff "card").2 (by decide)
  refine ⟨program, _, _, hprogram, hitems, hnames, by decide,
    Scaffold.ofScaffold_synthesize hselector "card.ng" [] [] .directive, ?_⟩
  decide

end NgFile
