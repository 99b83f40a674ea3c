import Mathlib.Data.List.Forall2
import NgFile.Proofs.Failures
import NgFile.Proofs.Statements

/-!
# What the statements of a script become

A script that parses is classified statement by statement.  Three relations say what comes
out: a statement offends if no class can take it, an offending statement has an error of its
own, and any other one becomes an item whose texts are slices of the script.  Every statement
either offends or becomes an item, so that a script is classified exactly if no statement of it
offends, and otherwise fails with the error of the first one that does.
-/

namespace NgFile

open Syntax ScriptItem

/-! ## Statements that no class can take -/

namespace Syntax

/-- A property that gives a metadata entry: neither a spread nor a method or accessor, and with
a key that can be told from the text. -/
def Property.IsEntry : Property → Prop
  | .spread _ _ | .method _ _ _ _ => False
  | p => p.static?.isSome = true

/-- Arguments that give metadata: a single object literal with entries only. -/
def IsMetadataObject (args : List Expr) : Prop :=
  ∃ loc properties, args = [.object loc properties] ∧ ∀ p ∈ properties, p.IsEntry

namespace Stmt

def bindings (s : Stmt) : List Binding :=
  match s.declared with
  | .variableDecl _ _ _ bs => bs
  | _ => []

/-- What a statement that is a call by itself calls, and with what arguments. -/
def call? : Stmt → Option (Expr × List Expr)
  | .expression _ (.call _ callee false _ args _ _) => some (callee, args)
  | _ => none

/-- A statement offends if it declares several variables, takes a value apart, or asks for
metadata with anything but an object literal of entries. -/
def Offends (script : Text) (s : Stmt) : Prop :=
  1 < s.bindings.length ∨ (∃ b ∈ s.bindings, b.pattern.IsDestructuring) ∨
    ∃ callee args, s.call? = some (callee, args) ∧ callee.loc.text script = metadataFunction ∧
      ¬ IsMetadataObject args

structure IsIgnored (s : Stmt) : Prop where
  not_import : ∀ loc decl, s ≠ .importDecl loc decl
  not_variables : ∀ loc kind isDeclare bindings,
    s.declared ≠ .variableDecl loc kind isDeclare bindings
  not_function : ∀ loc isDeclare f, s.declared ≠ .function loc isDeclare f
  not_call : s.call? = none

end Stmt

end Syntax

/-! ## The errors of offending statements -/

inductive Syntax.Property.Flaw : Property → Text → Prop
  | spread (loc : Loc) (argument : Expr) :
      Flaw (.spread loc argument) "spread entries are not supported"
  | method (loc : Loc) (kind : MethodKind) (key : Key) (f : Func) :
      Flaw (.method loc kind key f) "method and accessor entries are not supported"
  | pair (loc : Loc) {key : Key} (value : Expr) (h : key.static? = none) :
      Flaw (.pair loc key value) "computed keys are not supported"

/-- The error of an offending statement: of metadata, that of the first property with a flaw. -/
inductive OffenceOf (file script : Text) (s : Stmt) : CompileError → Prop
  | several {loc : Loc} {kind : VariableKind} {isDeclare : Bool} {bindings : List Binding}
      (h : s.declared = .variableDecl loc kind isDeclare bindings) (hlength : 1 < bindings.length) :
      OffenceOf file script s (.unsupportedDeclaration file
        ("expected a single declarator in " ++ quoted (loc.text script)))
  | destructuring {loc : Loc} {kind : VariableKind} {isDeclare : Bool} {b : Binding}
      (h : s.declared = .variableDecl loc kind isDeclare [b]) (hb : b.pattern.IsDestructuring) :
      OffenceOf file script s (.unsupportedDeclaration file
        ("destructuring is not supported in " ++ quoted (loc.text script)))
  | arguments {callee : Expr} {args : List Expr} (h : s.call? = some (callee, args))
      (hname : callee.loc.text script = metadataFunction)
      (hargs : ∀ loc properties, args ≠ [.object loc properties]) :
      OffenceOf file script s (.invalidDefineMetadata file
        "expected exactly one object literal argument")
  | property {callee : Expr} {loc : Loc} {front rest : List Property} {p : Property}
      {detail : Text} (h : s.call? = some (callee, [.object loc (front ++ p :: rest)]))
      (hname : callee.loc.text script = metadataFunction) (hfront : ∀ q ∈ front, q.IsEntry)
      (hp : p.Flaw detail) :
      OffenceOf file script s (.invalidDefineMetadata file detail)

/-! ## The items of other statements -/

inductive EntryOf (script : Text) : Property → MetadataEntry → Prop
  | pair (loc : Loc) {key : Key} (value : Expr) {name : Text} (h : key.static? = some name) :
      EntryOf script (.pair loc key value) ⟨name, value.loc.text script⟩
  | shorthand (loc : Loc) (name : Name) (default : Option Expr) :
      EntryOf script (.shorthand loc name default) ⟨name.text, name.loc.text script⟩

/-- The item of a statement, with every text as the slice of the script that a node covers. -/
inductive ItemOf (script : Text) (s : Stmt) : ScriptItem → Prop
  | importDecl {loc : Loc} {decl : ImportDecl} (h : s = .importDecl loc decl) :
      ItemOf script s (.importDecl (loc.text script)
        ((decl.clause.bind ImportClause.default).map fun name => name.loc.text script)
        (Text.finishesWith fileExtension decl.source.value.text))
  | initialized {loc : Loc} {kind : VariableKind} {isDeclare : Bool} {b : Binding} {name : Name}
      {value : Expr} (h : s.declared = .variableDecl loc kind isDeclare [b])
      (hname : b.pattern = .name name) (hvalue : b.value = some value) :
      ItemOf script s (.variableDecl kind.text (name.loc.text script) (b.loc.text script)
        (isFunction value))
  | uninitialized {loc : Loc} {kind : VariableKind} {isDeclare : Bool} {b : Binding}
      {name : Name} (h : s.declared = .variableDecl loc kind isDeclare [b])
      (hname : b.pattern = .name name) (hvalue : b.value = none) :
      ItemOf script s (.other (loc.text script))
  | function {loc : Loc} {isDeclare : Bool} {f : Func} {name : Name}
      (h : s.declared = .function loc isDeclare f) (hbody : f.hasBody = true)
      (hname : f.name = some name) :
      ItemOf script s (.functionDecl (name.loc.text script) (loc.text script))
  | bodiless {loc : Loc} {isDeclare : Bool} {f : Func}
      (h : s.declared = .function loc isDeclare f) (hbody : f.hasBody = false) :
      ItemOf script s (.other (s.loc.text script))
  | metadata {callee : Expr} {loc : Loc} {properties : List Property}
      {entries : List MetadataEntry} (h : s.call? = some (callee, [.object loc properties]))
      (hname : callee.loc.text script = metadataFunction)
      (hentries : List.Forall₂ (EntryOf script) properties entries) :
      ItemOf script s (.defineMetadata entries)
  | hook {callee : Expr} {loc : Loc} {f : Func} {concise : Bool}
      (h : s.call? = some (callee, [.arrow loc f concise]))
      (hname : callee.loc.text script = hookFunction) :
      ItemOf script s (.onInit f.isAsync (f.statements.map fun inner =>
        if concise then terminated (inner.loc.text script) else inner.loc.text script))
  | call {callee : Expr} {args : List Expr} (h : s.call? = some (callee, args))
      (hmetadata : callee.loc.text script ≠ metadataFunction)
      (hhook : callee.loc.text script = hookFunction →
        ∀ loc f concise, args ≠ [.arrow loc f concise]) :
      ItemOf script s (.call (s.loc.text script))
  | ignored (h : s.IsIgnored) : ItemOf script s (.other (s.loc.text script))

/-! ## What decides on a statement -/

inductive Syntax.Stmt.Shape (s : Stmt) : Prop
  | importDecl {loc : Loc} {decl : ImportDecl} (h : s = .importDecl loc decl)
  | bindings {loc : Loc} {kind : VariableKind} {isDeclare : Bool} {bindings : List Binding}
      (h : s.declared = .variableDecl loc kind isDeclare bindings)
  | function {loc : Loc} {isDeclare : Bool} {f : Func} (h : s.declared = .function loc isDeclare f)
  | call {callee : Expr} {args : List Expr} (h : s.call? = some (callee, args))
  | ignored (h : s.IsIgnored)

namespace Syntax.Stmt

variable {s : Stmt}

theorem shape (s : Stmt) : s.Shape := by
  by_cases himport : ∃ loc decl, s = .importDecl loc decl
  · obtain ⟨loc, decl, h⟩ := himport
    exact .importDecl h
  by_cases hvariables : ∃ loc kind isDeclare bindings,
      s.declared = .variableDecl loc kind isDeclare bindings
  · obtain ⟨loc, kind, isDeclare, bindings, h⟩ := hvariables
    exact .bindings h
  by_cases hfunction : ∃ loc isDeclare f, s.declared = .function loc isDeclare f
  · obtain ⟨loc, isDeclare, f, h⟩ := hfunction
    exact .function h
  cases hcall : s.call? with
  | some call => exact .call hcall
  | none =>
      exact .ignored ⟨fun loc decl h => himport ⟨loc, decl, h⟩,
        fun loc kind isDeclare bindings h => hvariables ⟨loc, kind, isDeclare, bindings, h⟩,
        fun loc isDeclare f h => hfunction ⟨loc, isDeclare, f, h⟩, hcall⟩

theorem exists_of_call? {callee : Expr} {args : List Expr} (h : s.call? = some (callee, args)) :
    ∃ loc callLoc typeArgs closing pure,
      s = .expression loc (.call callLoc callee false typeArgs args closing pure) := by
  unfold call? at h
  split at h
  · cases h
    exact ⟨_, _, _, _, _, rfl⟩
  · cases h

/-- What is declared is the statement itself, or the declaration of an export. -/
theorem eq_or_eq_exportDecl_of_declared {d : Stmt} (h : s.declared = d) :
    s = d ∨ ∃ loc, s = .exportDecl loc d := by
  unfold declared at h
  split at h
  · exact .inr ⟨_, by rw [h]⟩
  · exact .inl h

theorem bindings_of_declared {loc : Loc} {kind : VariableKind} {isDeclare : Bool}
    {bindings : List Binding} (h : s.declared = .variableDecl loc kind isDeclare bindings) :
    s.bindings = bindings := by
  simp [Stmt.bindings, h]

theorem call?_of_declared_variables {loc : Loc} {kind : VariableKind} {isDeclare : Bool}
    {bindings : List Binding} (h : s.declared = .variableDecl loc kind isDeclare bindings) :
    s.call? = none := by
  rcases eq_or_eq_exportDecl_of_declared h with rfl | ⟨_, rfl⟩ <;> rfl

theorem call?_of_declared_function {loc : Loc} {isDeclare : Bool} {f : Func}
    (h : s.declared = .function loc isDeclare f) : s.call? = none := by
  rcases eq_or_eq_exportDecl_of_declared h with rfl | ⟨_, rfl⟩ <;> rfl

theorem bindings_eq_nil (h : ∀ loc kind isDeclare bindings,
    s.declared ≠ .variableDecl loc kind isDeclare bindings) : s.bindings = [] := by
  unfold bindings
  split
  · rename_i heq
    exact absurd heq (h _ _ _ _)
  · rfl

theorem offends_iff_of_declared (script : Text) {loc : Loc} {kind : VariableKind}
    {isDeclare : Bool} {bindings : List Binding}
    (h : s.declared = .variableDecl loc kind isDeclare bindings) :
    s.Offends script ↔ 1 < bindings.length ∨ ∃ b ∈ bindings, b.pattern.IsDestructuring := by
  simp [Offends, bindings_of_declared h, call?_of_declared_variables h]

theorem offends_iff_of_call? {script : Text} {callee : Expr} {args : List Expr}
    (h : s.call? = some (callee, args)) :
    s.Offends script ↔
      callee.loc.text script = metadataFunction ∧ ¬ IsMetadataObject args := by
  have hbindings : s.bindings = [] := by
    obtain ⟨_, _, _, _, _, rfl⟩ := exists_of_call? h
    rfl
  simp [Offends, hbindings, h]

theorem not_offends {script : Text} (hbindings : s.bindings = []) (hcall : s.call? = none) :
    ¬ s.Offends script := by
  simp [Offends, hbindings, hcall]

end Syntax.Stmt

/-! ## Single statements -/

section Statements

variable {file script : Text} {s : Stmt}

theorem ofStatement_of_declared_variables {loc : Loc} {kind : VariableKind} {isDeclare : Bool}
    {bindings : List Binding} (h : s.declared = .variableDecl loc kind isDeclare bindings) :
    ofStatement file script s = ofVariables file script loc kind bindings := by
  rcases Stmt.eq_or_eq_exportDecl_of_declared h with rfl | ⟨_, rfl⟩ <;> rfl

theorem ofStatement_of_declared_function {loc : Loc} {isDeclare : Bool} {f : Func}
    (h : s.declared = .function loc isDeclare f) :
    ofStatement file script s =
      if f.hasBody then ofFunction file script loc f else .ok (.other (s.loc.text script)) := by
  rcases Stmt.eq_or_eq_exportDecl_of_declared h with rfl | ⟨_, rfl⟩ <;> rfl

theorem ofStatement_of_call? {callee : Expr} {args : List Expr}
    (h : s.call? = some (callee, args)) :
    ofStatement file script s = ofCall file script s.loc callee args := by
  obtain ⟨_, _, _, _, _, rfl⟩ := Stmt.exists_of_call? h
  rfl

/-- A call of the metadata function gives metadata. -/
theorem ofStatement_of_metadata_call {callee : Expr} {args : List Expr}
    (h : s.call? = some (callee, args)) (hname : callee.loc.text script = metadataFunction) :
    ofStatement file script s = (ofMetadataCall file script args).map .defineMetadata := by
  rw [ofStatement_of_call? h]
  unfold ofCall
  exact if_pos hname

theorem ofStatement_of_isIgnored (h : s.IsIgnored) :
    ofStatement file script s = .ok (.other (s.loc.text script)) := by
  unfold ofStatement
  split
  · exact absurd rfl (h.not_import _ _)
  · exact absurd rfl (h.not_variables _ _ _ _)
  · exact absurd rfl (h.not_function _ _ _)
  · split
    · exact absurd rfl (h.not_variables _ _ _ _)
    · exact absurd rfl (h.not_function _ _ _)
    · rfl
  · exact absurd h.not_call (by simp [Stmt.call?])
  · rfl

end Statements

/-! ## Properties -/

section Properties

variable {file script : Text} {p : Property}

theorem ofProperty_eq_ok_iff {entry : MetadataEntry} :
    ofProperty file script p = .ok entry ↔ EntryOf script p entry := by
  constructor
  · intro h
    cases p with
    | pair loc key value =>
        unfold ofProperty at h
        cases hkey : key.static? with
        | none => simp [Property.static?, hkey] at h
        | some name =>
            obtain rfl : (⟨name, value.loc.text script⟩ : MetadataEntry) = entry := by
              simpa [Property.static?, Property.valueText, hkey] using h
            exact .pair loc value hkey
    | shorthand loc name default =>
        cases h
        exact .shorthand loc name default
    | method _ _ _ _ => cases h
    | spread _ _ => cases h
  · intro h
    cases h with
    | pair loc value h => simp [ofProperty, Property.static?, Property.valueText, h]
    | shorthand loc name default => rfl

theorem ofProperty_eq_error_iff {e : CompileError} :
    ofProperty file script p = .error e ↔
      ∃ detail, p.Flaw detail ∧ e = .invalidDefineMetadata file detail := by
  constructor
  · intro h
    cases p with
    | pair loc key value =>
        unfold ofProperty at h
        cases hkey : key.static? with
        | none => exact ⟨_, .pair loc value hkey, by simpa [Property.static?, hkey] using h.symm⟩
        | some name => simp [Property.static?, hkey] at h
    | shorthand _ _ _ => cases h
    | method loc kind key f => exact ⟨_, .method loc kind key f, (Except.error.inj h).symm⟩
    | spread loc argument => exact ⟨_, .spread loc argument, (Except.error.inj h).symm⟩
  · rintro ⟨detail, hflaw, rfl⟩
    cases hflaw with
    | spread loc argument => rfl
    | method loc kind key f => rfl
    | pair loc value h => simp [ofProperty, Property.static?, h]

theorem isEntry_iff_exists (script : Text) : p.IsEntry ↔ ∃ entry, EntryOf script p entry := by
  constructor
  · intro h
    cases p with
    | pair loc key value =>
        obtain ⟨name, hname⟩ := Option.isSome_iff_exists.1 h
        exact ⟨_, .pair loc value hname⟩
    | shorthand loc name default => exact ⟨_, .shorthand loc name default⟩
    | method _ _ _ _ => exact h.elim
    | spread _ _ => exact h.elim
  · rintro ⟨entry, h⟩
    cases h with
    | pair loc value h => exact Option.isSome_of_eq_some h
    | shorthand loc name default => rfl

theorem not_isEntry_of_flaw {detail : Text} (h : p.Flaw detail) : ¬ p.IsEntry := by
  cases h with
  | spread loc argument => exact id
  | method loc kind key f => exact id
  | pair loc value h => simp [Property.IsEntry, Property.static?, h]

end Properties

/-! ## Every statement offends or becomes an item -/

section Decisions

variable {file script : Text} {s : Stmt}

theorem ofStatement_of_itemOf {item : ScriptItem} (h : ItemOf script s item) :
    ofStatement file script s = .ok item := by
  cases h with
  | importDecl h =>
      subst h
      rfl
  | initialized h hname hvalue =>
      rw [ofStatement_of_declared_variables h]
      simp [ofVariables, hname, hvalue]
  | uninitialized h hname hvalue =>
      rw [ofStatement_of_declared_variables h]
      simp [ofVariables, hname, hvalue]
  | function h hbody hname =>
      rw [ofStatement_of_declared_function h, if_pos hbody, ofFunction, hname]
  | bodiless h hbody => rw [ofStatement_of_declared_function h, if_neg (by simp [hbody])]
  | @metadata _ _ properties entries h hname hentries =>
      have hrun : properties.mapM (ofProperty file script) = .ok entries :=
        mapM_eq_ok_iff.2 (hentries.imp fun _ _ => ofProperty_eq_ok_iff.2)
      rw [ofStatement_of_metadata_call h hname, ofMetadataCall, hrun]
      rfl
  | hook h hname =>
      have hother : hookFunction ≠ metadataFunction := by decide
      rw [ofStatement_of_call? h]
      simp [ofCall, ofHook, TargetClass.statementTexts, hname, hother]
  | call h hmetadata hhook =>
      rw [ofStatement_of_call? h]
      simp only [ofCall, if_neg hmetadata]
      split
      · rw [if_neg fun hname => hhook hname _ _ _ rfl]
      · rfl
  | ignored h => exact ofStatement_of_isIgnored h

theorem ofStatement_of_offenceOf {e : CompileError} (h : OffenceOf file script s e) :
    ofStatement file script s = .error e := by
  cases h with
  | several h hlength =>
      rw [ofStatement_of_declared_variables h]
      unfold ofVariables
      dsimp only
      split
      · simp at hlength
      · rfl
  | destructuring h hb =>
      rw [ofStatement_of_declared_variables h]
      unfold ofVariables
      dsimp only
      split
      · rename_i hname
        simp [hname, Pattern.IsDestructuring] at hb
      · rfl
  | arguments h hname hargs =>
      rw [ofStatement_of_metadata_call h hname, ofMetadataCall]
      · rfl
      · exact hargs
  | @property _ _ front rest p detail h hname hfront hp =>
      have hrun : (front ++ p :: rest).mapM (ofProperty file script) =
          .error (.invalidDefineMetadata file detail) := by
        refine mapM_eq_error_iff.2 ⟨front, p, rest, rfl, fun q hq => ?_,
          ofProperty_eq_error_iff.2 ⟨detail, hp, rfl⟩⟩
        obtain ⟨entry, hentry⟩ := (isEntry_iff_exists script).1 (hfront q hq)
        exact ⟨entry, ofProperty_eq_ok_iff.2 hentry⟩
      rw [ofStatement_of_metadata_call h hname, ofMetadataCall, hrun]
      rfl

/-- A call for metadata becomes an item with one entry for each property. -/
theorem exists_entries_of_itemOf {item : ScriptItem} {callee : Expr} {loc : Loc}
    {properties : List Property} (hitem : ItemOf script s item)
    (hcall : s.call? = some (callee, [.object loc properties]))
    (hname : callee.loc.text script = metadataFunction) :
    ∃ entries, item = .defineMetadata entries ∧
      List.Forall₂ (EntryOf script) properties entries := by
  have hrun : ofStatement [] script s = .ok item := ofStatement_of_itemOf hitem
  rw [ofStatement_of_metadata_call hcall hname, ofMetadataCall] at hrun
  cases hentries : properties.mapM (ofProperty [] script) with
  | error e =>
      rw [hentries] at hrun
      cases hrun
  | ok entries =>
      rw [hentries] at hrun
      cases hrun
      refine ⟨entries, rfl, ?_⟩
      exact (mapM_eq_ok_iff.1 hentries).imp fun p entry => ofProperty_eq_ok_iff.1

/-- A statement offends, and has an error, or it does not, and becomes an item. -/
inductive Decided (file script : Text) (s : Stmt) : Prop
  | offends (hs : s.Offends script) {e : CompileError} (he : OffenceOf file script s e)
  | becomes (hs : ¬ s.Offends script) {item : ScriptItem} (hitem : ItemOf script s item)

/-- A declaration of variables offends, or it is a single variable with a name. -/
theorem decided_of_declared_variables {loc : Loc} {kind : VariableKind} {isDeclare : Bool}
    {bindings : List Binding} (hs : s.IsComplete)
    (h : s.declared = .variableDecl loc kind isDeclare bindings) : Decided file script s := by
  have hoffends := Stmt.offends_iff_of_declared script h
  obtain ⟨hne, hdeclarable⟩ : (Stmt.variableDecl loc kind isDeclare bindings).Binds := h ▸ hs.2
  match bindings, h, hoffends, hne, hdeclarable with
  | [b], h, hoffends, _, hdeclarable =>
      rcases hdeclarable b (by simp) with hname | hb
      · obtain ⟨name, hname⟩ : ∃ name, b.pattern = .name name := by
          cases hpattern : b.pattern <;> simp_all [Pattern.isName]
        have hfine : ¬ s.Offends script := by simp [hoffends, hname, Pattern.IsDestructuring]
        cases hvalue : b.value with
        | none => exact .becomes hfine (.uninitialized h hname hvalue)
        | some value => exact .becomes hfine (.initialized h hname hvalue)
      · exact .offends (hoffends.2 (.inr ⟨b, by simp, hb⟩)) (.destructuring h hb)
  | _ :: _ :: _, h, hoffends, _, _ =>
      exact .offends (hoffends.2 (.inl (by simp))) (.several h (by simp))

/-- A call for metadata offends, or all properties of its only argument are entries. -/
theorem decided_of_metadata_call {callee : Expr} {args : List Expr}
    (h : s.call? = some (callee, args)) (hname : callee.loc.text script = metadataFunction) :
    Decided file script s := by
  by_cases hargs : ∃ loc properties, args = [.object loc properties]
  · obtain ⟨loc, properties, rfl⟩ := hargs
    -- The traversal that makes the entries finds the first property with a flaw.
    cases hrun : properties.mapM (ofProperty file script) with
    | ok entries =>
        have hobject : IsMetadataObject [.object loc properties] := by
          refine ⟨loc, properties, rfl, fun p hp => ?_⟩
          obtain ⟨entry, hentry⟩ := exists_mapM_ok_iff.1 ⟨entries, hrun⟩ p hp
          exact (isEntry_iff_exists script).2 ⟨entry, ofProperty_eq_ok_iff.1 hentry⟩
        have hentries := (mapM_eq_ok_iff.1 hrun).imp fun _ _ => ofProperty_eq_ok_iff.1
        exact .becomes (fun hs => ((Stmt.offends_iff_of_call? h).1 hs).2 hobject)
          (.metadata h hname hentries)
    | error e =>
        obtain ⟨front, p, rest, rfl, hfront, hp⟩ := mapM_eq_error_iff.1 hrun
        obtain ⟨detail, hflaw, _⟩ := ofProperty_eq_error_iff.1 hp
        have hobject : ¬ IsMetadataObject [.object loc (front ++ p :: rest)] := by
          rintro ⟨_, _, heq, hall⟩
          cases heq
          exact not_isEntry_of_flaw hflaw (hall p (by simp))
        refine .offends ((Stmt.offends_iff_of_call? h).2 ⟨hname, hobject⟩)
          (.property h hname (fun q hq => ?_) hflaw)
        obtain ⟨entry, hentry⟩ := hfront q hq
        exact (isEntry_iff_exists script).2 ⟨entry, ofProperty_eq_ok_iff.1 hentry⟩
  · have hobject : ¬ IsMetadataObject args :=
      fun ⟨loc, properties, heq, _⟩ => hargs ⟨loc, properties, heq⟩
    exact .offends ((Stmt.offends_iff_of_call? h).2 ⟨hname, hobject⟩)
      (.arguments h hname fun loc properties heq => hargs ⟨loc, properties, heq⟩)

theorem decided (file script : Text) {s : Stmt} (hs : s.IsComplete) : Decided file script s := by
  cases s.shape with
  | importDecl h =>
      subst h
      exact .becomes (Stmt.not_offends rfl rfl) (.importDecl rfl)
  | bindings h => exact decided_of_declared_variables hs h
  | @function loc isDeclare f h =>
      have hfine : ¬ s.Offends script := by
        rcases Stmt.eq_or_eq_exportDecl_of_declared h with rfl | ⟨_, rfl⟩ <;>
          exact Stmt.not_offends rfl rfl
      cases hbody : f.hasBody with
      | false => exact .becomes hfine (.bodiless h hbody)
      | true =>
          have hbinds : (Stmt.function loc isDeclare f).Binds := h ▸ hs.2
          obtain ⟨name, hname⟩ := Option.isSome_iff_exists.1 hbinds
          exact .becomes hfine (.function h hbody hname)
  | @call callee args h =>
      by_cases hname : callee.loc.text script = metadataFunction
      · exact decided_of_metadata_call h hname
      · have hfine : ¬ s.Offends script :=
          fun hoffends => hname ((Stmt.offends_iff_of_call? h).1 hoffends).1
        by_cases hhook : callee.loc.text script = hookFunction ∧
            ∃ loc f concise, args = [.arrow loc f concise]
        · obtain ⟨hhook, loc, f, concise, rfl⟩ := hhook
          exact .becomes hfine (.hook h hhook)
        · exact .becomes hfine (.call h hname fun hcallee loc f concise heq =>
            hhook ⟨hcallee, loc, f, concise, heq⟩)
  | ignored h =>
      have hbindings := Stmt.bindings_eq_nil h.not_variables
      exact .becomes (Stmt.not_offends hbindings h.not_call) (.ignored h)

theorem ofStatement_eq_ok_iff (hs : s.IsComplete) {item : ScriptItem} :
    ofStatement file script s = .ok item ↔ ItemOf script s item := by
  refine ⟨fun h => ?_, ofStatement_of_itemOf⟩
  cases decided file script hs with
  | offends _ he =>
      rw [ofStatement_of_offenceOf he] at h
      cases h
  | becomes _ hitem =>
      rw [ofStatement_of_itemOf hitem] at h
      cases h
      exact hitem

theorem ofStatement_eq_error_iff (hs : s.IsComplete) {e : CompileError} :
    ofStatement file script s = .error e ↔ OffenceOf file script s e := by
  refine ⟨fun h => ?_, ofStatement_of_offenceOf⟩
  cases decided file script hs with
  | offends _ he =>
      rw [ofStatement_of_offenceOf he] at h
      cases h
      exact he
  | becomes _ hitem =>
      rw [ofStatement_of_itemOf hitem] at h
      cases h

theorem exists_ofStatement_eq_ok_iff (hs : s.IsComplete) :
    (∃ item, ofStatement file script s = .ok item) ↔ ¬ s.Offends script := by
  cases decided file script hs with
  | offends hoffends he => simp [ofStatement_of_offenceOf he, hoffends]
  | becomes hoffends hitem => simp [ofStatement_of_itemOf hitem, hoffends]

end Decisions

/-! ## Whole scripts -/

namespace ScriptItem

section Scripts

variable {file script : Text} {program : Program}

theorem classify_of_parse (h : Program.parse script = .ok program) :
    classify file script = program.body.mapM (ofStatement file script) := by
  simp [classify, h]

theorem exists_parse_of_classify {items : List ScriptItem} (h : classify file script = .ok items) :
    ∃ program, Program.parse script = .ok program := by
  unfold classify at h
  split at h
  · cases h
  · exact ⟨_, by assumption⟩

theorem classify_eq_ok_iff (h : Program.parse script = .ok program) {items : List ScriptItem} :
    classify file script = .ok items ↔ List.Forall₂ (ItemOf script) program.body items := by
  rw [classify_of_parse h, mapM_eq_ok_iff]
  constructor
  · intro hitems
    have hcomplete := (List.forall₂_and_left _ _).2 ⟨Program.isComplete_of_parse h, hitems⟩
    exact hcomplete.imp fun s item ⟨hs, hitem⟩ => (ofStatement_eq_ok_iff hs).1 hitem
  · exact fun hitems => hitems.imp fun s item => ofStatement_of_itemOf

theorem classify_eq_error_iff (h : Program.parse script = .ok program) {e : CompileError} :
    classify file script = .error e ↔
      ∃ front s rest, program.body = front ++ s :: rest ∧ (∀ r ∈ front, ¬ r.Offends script) ∧
        OffenceOf file script s e := by
  have hcomplete := Program.isComplete_of_parse h
  rw [classify_of_parse h, mapM_eq_error_iff]
  constructor
  · rintro ⟨front, s, rest, hbody, hfront, hs⟩
    rw [hbody] at hcomplete
    refine ⟨front, s, rest, hbody, fun r hr => ?_, (ofStatement_eq_error_iff ?_).1 hs⟩
    · exact (exists_ofStatement_eq_ok_iff (hcomplete r (by simp [hr]))).1 (hfront r hr)
    · exact hcomplete s (by simp)
  · rintro ⟨front, s, rest, hbody, hfront, hs⟩
    rw [hbody] at hcomplete
    refine ⟨front, s, rest, hbody, fun r hr => ?_, ofStatement_of_offenceOf hs⟩
    exact (exists_ofStatement_eq_ok_iff (hcomplete r (by simp [hr]))).2 (hfront r hr)

theorem exists_classify_ok_iff (h : Program.parse script = .ok program) :
    (∃ items, classify file script = .ok items) ↔ ∀ s ∈ program.body, ¬ s.Offends script := by
  have hcomplete := Program.isComplete_of_parse h
  rw [classify_of_parse h, exists_mapM_ok_iff]
  exact forall₂_congr fun s hs => exists_ofStatement_eq_ok_iff (hcomplete s hs)

/-- A script that parses is classified exactly if none of its statements offends: then there is
one item for every statement, with its texts; else the first that offends has the error. -/
theorem classify_statements (h : Program.parse script = .ok program) :
    ((∃ items, classify file script = .ok items) ↔ ∀ s ∈ program.body, ¬ s.Offends script) ∧
      (∀ items, classify file script = .ok items ↔
        List.Forall₂ (ItemOf script) program.body items) ∧
      ∀ e, classify file script = .error e ↔
        ∃ front s rest, program.body = front ++ s :: rest ∧ (∀ r ∈ front, ¬ r.Offends script) ∧
          OffenceOf file script s e :=
  ⟨exists_classify_ok_iff h, fun _ => classify_eq_ok_iff h, fun _ => classify_eq_error_iff h⟩

end Scripts

/-- A script of one item for every statement, and one where the first of two declarations that
offend decides. -/
theorem classify_statements_pair :
    (∃ program,
      Program.parse "import A from './a.ng'; let b; defineMetadata(\x7b c \x7d); onInit(() => d())" =
        .ok program ∧
      List.Forall₂
        (ItemOf "import A from './a.ng'; let b; defineMetadata(\x7b c \x7d); onInit(() => d())")
        program.body
        [.importDecl "import A from './a.ng';" (some "A") true, .other "let b;",
          .defineMetadata [⟨"c", "c"⟩], .onInit false ["d();"]]) ∧
    ∃ program front s rest, Program.parse "const [a] = b; const c = 0, d = 1;" = .ok program ∧
      program.body = front ++ s :: rest ∧
      (∀ r ∈ front, ¬ r.Offends "const [a] = b; const c = 0, d = 1;") ∧
      OffenceOf "card.ng" "const [a] = b; const c = 0, d = 1;" s (.unsupportedDeclaration
        "card.ng" "destructuring is not supported in `const [a] = b;`") := by
  constructor
  · have hrun : classify "card.ng"
          "import A from './a.ng'; let b; defineMetadata(\x7b c \x7d); onInit(() => d())" =
        .ok [.importDecl "import A from './a.ng';" (some "A") true, .other "let b;",
          .defineMetadata [⟨"c", "c"⟩], .onInit false ["d();"]] := by
      decide +kernel
    obtain ⟨program, hprogram⟩ := exists_parse_of_classify hrun
    exact ⟨program, hprogram, ((classify_statements hprogram).2.1 _).1 hrun⟩
  · have hrun : classify "card.ng" "const [a] = b; const c = 0, d = 1;" =
        .error (.unsupportedDeclaration "card.ng"
          "destructuring is not supported in `const [a] = b;`") := by
      decide +kernel
    have hparses : (Program.parse "const [a] = b; const c = 0, d = 1;").isOk = true := by
      decide +kernel
    cases hprogram : Program.parse "const [a] = b; const c = 0, d = 1;" with
    | error e =>
        rw [hprogram] at hparses
        cases hparses
    | ok program =>
        obtain ⟨front, s, rest, hs⟩ := ((classify_statements hprogram).2.2 _).1 hrun
        exact ⟨program, front, s, rest, rfl, hs⟩

end ScriptItem

end NgFile
