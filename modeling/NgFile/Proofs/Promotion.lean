import NgFile.Proofs.Merging

/-!
# Promotion as an append

What an item does to a target depends on the item alone: it adds texts to the ends of
the target's lists, and entries to be merged into its metadata.  Promoting a list of
items therefore appends what the items contribute, in their order, whatever stands
between them.
-/

namespace NgFile

/-- What an item adds to each part of a target. -/
structure Contribution where
  importTexts : List Text
  statements : List Text
  properties : List ClassProperty
  methods : List ClassMethod
  /-- The entries that are merged into the metadata. -/
  entries : List MetadataEntry

namespace Contribution

def nothing : Contribution :=
  ⟨[], [], [], [], []⟩

/-- What a promoted local adds: a property, and the local again with its assignment. -/
def promoted (name redeclaration assignment : Text) : Contribution :=
  { nothing with
    statements := [redeclaration, assignment]
    properties := [⟨.isProtected, name, none⟩] }

def plainAssignment (name : Text) : Text :=
  "this." ++ name ++ " = " ++ name ++ ";"

def boundAssignment (name : Text) : Text :=
  "this." ++ name ++ " = " ++ name ++ ".bind(this);"

/-- A hook as a function declaration: its statements as they are, each on a line of its own. -/
def hookFunction (isAsync : Bool) (statements : List Text) : Text :=
  let body : Text := match statements with
    | [] => []
    | statements => statements.flatMap (fun statement => '\n' :: statement) ++ ['\n']
  if isAsync then "async function onInit() \x7b" ++ body ++ "\x7d"
  else "function onInit() \x7b" ++ body ++ "\x7d"

/-- The method through which the framework reaches the hook. -/
def hookCaller : ClassMethod :=
  ⟨"ngOnInit", [], ["this.onInit();"]⟩

def ofItem : ScriptItem → Contribution
  | .importDecl text _ _ => { nothing with importTexts := [ScriptItem.terminated text] }
  | .variableDecl keyword name declarator isFunction =>
      promoted name (keyword ++ " " ++ declarator ++ ";")
        (if isFunction then boundAssignment name else plainAssignment name)
  | .functionDecl name text => promoted name text (boundAssignment name)
  | .defineMetadata entries =>
      { nothing with
        properties := entries.flatMap Metadata.exposedProperties
        entries := entries }
  | .onInit isAsync statements =>
      { promoted "onInit" (hookFunction isAsync statements) (boundAssignment "onInit") with
        methods := [hookCaller] }
  | .call text => { nothing with statements := [ScriptItem.terminated text] }
  | .other _ => nothing

end Contribution

/-- Line feeds in front of all texts and behind the last are line feeds around and between them. -/
theorem Text.flatMap_newline {ts : List Text} (hts : ts ≠ []) :
    ts.flatMap (fun t => '\n' :: t) ++ ['\n'] = "\n" ++ Text.joinWith "\n" ts ++ "\n" := by
  induction ts with
  | nil => exact absurd rfl hts
  | cons t more ih =>
      cases more with
      | nil => simp [Text.joinWith]
      | cons t' more =>
          have hjoin : Text.joinWith "\n" (t :: t' :: more) =
              t ++ "\n" ++ Text.joinWith "\n" (t' :: more) := rfl
          rw [List.flatMap_cons, List.append_assoc, ih (List.cons_ne_nil _ _), hjoin]
          simp only [List.append_assoc]
          rfl

theorem ScriptItem.hookDeclaration_eq (isAsync : Bool) (statements : List Text) :
    ScriptItem.hookDeclaration isAsync statements =
      Contribution.hookFunction isAsync statements := by
  cases statements with
  | nil => cases isAsync <;> rfl
  | cons statement more =>
      have hbody := Text.flatMap_newline (List.cons_ne_nil statement more)
      simp only [hookDeclaration, Contribution.hookFunction, hbody]
      cases isAsync <;> rfl

/-- Promoting a local appends a property and two statements to the class. -/
theorem TargetClass.promote_eq (c : TargetClass) (name redeclaration : Text) (bind : Bool) :
    c.promote name redeclaration bind =
      { c with
        properties := c.properties ++ [⟨.isProtected, name, none⟩]
        constructorBody := c.constructorBody ++ [redeclaration, assignment name bind] } := by
  simp only [promote, addProperty, addStatement, ClassProperty.declared, List.append_assoc,
    List.cons_append, List.nil_append]

namespace Target

/-- A target with a contribution appended to each of its parts. -/
def extend (t : Target) (c : Contribution) : Target :=
  { fileName := t.fileName
    kind := t.kind
    importTexts := t.importTexts ++ c.importTexts
    entity :=
      { name := t.entity.name
        decorator := t.entity.decorator
        metadata := t.entity.metadata.merge c.entries
        properties := t.entity.properties ++ c.properties
        constructorBody := t.entity.constructorBody ++ c.statements
        methods := t.entity.methods ++ c.methods } }

@[simp] theorem extend_nothing (t : Target) : t.extend .nothing = t := by
  simp only [extend, Contribution.nothing, Metadata.merge_nil, List.append_nil]

/-- One item appends its contribution and does nothing else. -/
theorem apply_eq_extend (t : Target) (item : ScriptItem) :
    item.apply t = t.extend (.ofItem item) := by
  cases item with
  | importDecl text default fromNgFile =>
      simp only [ScriptItem.apply, addImport, extend, Contribution.ofItem, Contribution.nothing,
        Metadata.merge_nil, List.append_nil]
  | variableDecl keyword name declarator isFunction =>
      simp only [ScriptItem.apply, mapEntity, TargetClass.promote_eq, extend,
        Contribution.ofItem, Contribution.promoted, Contribution.nothing, Metadata.merge_nil,
        List.append_nil]
      rfl
  | functionDecl name text =>
      simp only [ScriptItem.apply, mapEntity, TargetClass.promote_eq, extend,
        Contribution.ofItem, Contribution.promoted, Contribution.nothing, Metadata.merge_nil,
        List.append_nil]
      rfl
  | defineMetadata entries =>
      simp only [ScriptItem.apply, mapEntity, TargetClass.mergeMetadata_eq, extend,
        Contribution.ofItem, Contribution.nothing, List.append_nil]
  | onInit isAsync statements =>
      rw [Contribution.ofItem, ← ScriptItem.hookDeclaration_eq]
      simp only [ScriptItem.apply, mapEntity, TargetClass.promote_eq, TargetClass.addMethod,
        extend, Contribution.promoted, Contribution.nothing, Metadata.merge_nil, List.append_nil]
      rfl
  | call text =>
      simp only [ScriptItem.apply, mapEntity, TargetClass.addStatement, extend,
        Contribution.ofItem, Contribution.nothing, Metadata.merge_nil, List.append_nil]
  | other text =>
      simp only [ScriptItem.apply, Contribution.ofItem, extend_nothing]

/--
Promotion appends, in the order of the items, what each item contributes on its own.  The
entries of all metadata calls are merged as one list, whatever lies between the calls.
-/
theorem promote_eq_append (t : Target) (items : List ScriptItem) :
    t.promote items =
      { fileName := t.fileName
        kind := t.kind
        importTexts := t.importTexts ++ items.flatMap fun i => (Contribution.ofItem i).importTexts
        entity :=
          { name := t.entity.name
            decorator := t.entity.decorator
            metadata :=
              t.entity.metadata.merge (items.flatMap fun i => (Contribution.ofItem i).entries)
            properties :=
              t.entity.properties ++ items.flatMap fun i => (Contribution.ofItem i).properties
            constructorBody :=
              t.entity.constructorBody ++
                items.flatMap fun i => (Contribution.ofItem i).statements
            methods :=
              t.entity.methods ++ items.flatMap fun i => (Contribution.ofItem i).methods } } := by
  unfold promote
  induction items generalizing t with
  | nil =>
      simp
  | cons item rest ih =>
      rw [List.foldl_cons, ih, apply_eq_extend]
      simp [extend, Metadata.merge_append, List.append_assoc]

/--
A hook, a call and names to expose between two metadata calls: the hook is declared again with
its statements, and the entries of both calls are merged.
-/
theorem promote_hook_between_metadata :
    let t : Target :=
      ⟨"card.ng", .directive, ["import \x7b Directive \x7d from '@angular/core';"],
        ⟨"AnalogNgEntity", "Directive", .ofEntries [⟨"selector", "'card'"⟩], [], [], []⟩⟩
    t.promote
        [.defineMetadata [⟨"exposes", "[Math, log]"⟩, ⟨"host", "\x7b\x7d"⟩],
          .onInit true ["await load();", "log('ready')"], .call "start()",
          .defineMetadata [⟨"selector", "'panel'"⟩, ⟨"host", "own"⟩]] =
      ⟨"card.ng", .directive, ["import \x7b Directive \x7d from '@angular/core';"],
        ⟨"AnalogNgEntity", "Directive", .ofEntries [⟨"host", "own"⟩, ⟨"selector", "'panel'"⟩],
          [⟨.isProtected, "Math", some "Math"⟩, ⟨.isProtected, "log", some "log"⟩,
            ⟨.isProtected, "onInit", none⟩],
          ["async function onInit() \x7b\nawait load();\nlog('ready')\n\x7d",
            "this.onInit = onInit.bind(this);", "start();"],
          [⟨"ngOnInit", [], ["this.onInit();"]⟩]⟩⟩ := by
  intro t
  rw [promote_eq_append]
  decide +kernel

end Target

end NgFile
