import NgFile.Proofs.Classification
import NgFile.Proofs.Edits
import NgFile.Proofs.ScaffoldReading

/-!
# Call statements

A statement that only calls something is there for its effect, and it goes into the constructor
as it is, between what the declarations around it leave there.  This holds for calls that are
made directly.  A call through an optional chain is another kind of expression, and is left out.
-/

namespace NgFile

open Syntax ScriptItem

namespace Syntax.Stmt

/-- What a statement that is a call through an optional chain calls, and with what arguments. -/
def chainCall? : Stmt → Option (Expr × List Expr)
  | .expression _ (.chain _ (.call _ callee _ _ args _ _)) => some (callee, args)
  | _ => none

/-- A call for its effect: neither one for metadata, nor one for a hook with an arrow function. -/
def IsPlainCall (script : Text) (s : Stmt) : Prop :=
  ∃ callee args, (s.call? = some (callee, args) ∨ s.chainCall? = some (callee, args)) ∧
    callee.loc.text script ≠ metadataFunction ∧
    (callee.loc.text script = hookFunction → ∀ loc f concise, args ≠ [.arrow loc f concise])

theorem isIgnored_of_chainCall? {s : Stmt} {call : Expr × List Expr}
    (h : s.chainCall? = some call) : s.IsIgnored := by
  unfold chainCall? at h
  split at h
  · exact ⟨nofun, nofun, nofun, rfl⟩
  · cases h

end Syntax.Stmt

section Statements

variable {script : Text} {s : Stmt} {item item' : ScriptItem}

theorem itemOf_unique (h : ItemOf script s item) (h' : ItemOf script s item') : item = item' := by
  have hitem : ofStatement [] script s = .ok item := ofStatement_of_itemOf h
  have hitem' : ofStatement [] script s = .ok item' := ofStatement_of_itemOf h'
  exact Except.ok.inj (hitem.symm.trans hitem')

/-- A call for its effect leaves itself, if it is made directly, and nothing otherwise. -/
theorem statements_of_isPlainCall (hitem : ItemOf script s item) (h : s.IsPlainCall script) :
    (Contribution.ofItem item).statements =
      if s.call?.isSome then [terminated (s.loc.text script)] else [] := by
  obtain ⟨callee, args, hdirect | hchain, hmetadata, hhook⟩ := h
  · rw [itemOf_unique hitem (.call hdirect hmetadata hhook), hdirect]
    rfl
  · have hignored := Stmt.isIgnored_of_chainCall? hchain
    rw [itemOf_unique hitem (.ignored hignored), hignored.not_call]
    rfl

end Statements

section Scripts

variable {file script : Text} {program : Program} {items : List ScriptItem}

/--
The constructor gets a block of statements from every statement of a script, in their order:
that of the item that the statement is.  The block of a call for its effect is the call, with a
semicolon at its end, if it is made directly, and empty if it is made through an optional chain.
-/
theorem constructorBody_of_script (hparse : Program.parse script = .ok program)
    (hitems : classify file script = .ok items) (t : Target) :
    ∃ blocks : List (List Text),
      (t.promote items).entity.constructorBody = t.entity.constructorBody ++ blocks.flatten ∧
      List.Forall₂
        (fun s block =>
          (∃ item, ItemOf script s item ∧ block = (Contribution.ofItem item).statements) ∧
          (s.IsPlainCall script →
            block = if s.call?.isSome then [terminated (s.loc.text script)] else []))
        program.body blocks := by
  have hbody := Target.promote_part (fun t => t.entity.constructorBody) Contribution.statements
    (fun _ _ => rfl) t items
  refine ⟨items.map fun i => (Contribution.ofItem i).statements, ?_, ?_⟩
  · rw [hbody, List.flatMap_def]
  · rw [List.forall₂_map_right_iff]
    refine ((classify_eq_ok_iff hparse).1 hitems).imp fun s item hitem => ?_
    exact ⟨⟨item, hitem, rfl⟩, statements_of_isPlainCall hitem⟩

end Scripts

/-- A call stands behind the variable in front of it; the one through an optional chain is gone. -/
theorem constructorBody_of_script_counter :
    let script : Text := "const n = 0; log(n); tell?.(n); const m = 1"
    let t := Scaffold.target "card.ng" (Names.ofIdentifier "card") [] [] .directive
    let body : List Text :=
      ["const n = 0;", "this.n = n;", "log(n);", "const m = 1;", "this.m = m;"]
    ∃ (program : Program) (items : List ScriptItem) (blocks : List (List Text)),
      Program.parse script = .ok program ∧ classify "card.ng" script = .ok items ∧
      (t.promote items).entity.constructorBody = t.entity.constructorBody ++ blocks.flatten ∧
      blocks.flatten = body := by
  intro script t body
  have hitems : classify "card.ng" script = .ok
      [.variableDecl "const" "n" "n = 0" false, .call "log(n);", .other "tell?.(n);",
        .variableDecl "const" "m" "m = 1" false] := by
    decide +kernel
  obtain ⟨program, hprogram⟩ := exists_parse_of_classify hitems
  obtain ⟨blocks, hbody, -⟩ := constructorBody_of_script hprogram hitems t
  refine ⟨program, _, blocks, hprogram, hitems, hbody, ?_⟩
  have hempty : t.entity.constructorBody = [] := rfl
  rw [hempty, List.nil_append] at hbody
  exact hbody.symm

/-- A script whose only statement is a call for its effect, and nothing comes of it. -/
theorem dropped_optional_call :
    let script : Text := "f?.();"
    ∃ program items s, Program.parse script = .ok program ∧
      classify "card.ng" script = .ok items ∧ program.body = [s] ∧ s.IsPlainCall script ∧
      ∀ t : Target, (t.promote items).entity.constructorBody = t.entity.constructorBody := by
  intro script
  have hitems : classify "card.ng" script = .ok [.other "f?.();"] := by decide +kernel
  have hcalls : ((Program.parse script).toOption.map fun program =>
      program.body.map fun s => s.chainCall?.map fun call => call.1.loc.text script) =
        some [some (("f" : Text))] := by
    decide +kernel
  obtain ⟨program, hprogram⟩ := exists_parse_of_classify hitems
  rw [hprogram] at hcalls
  obtain ⟨s, hbody, hs⟩ := List.map_eq_singleton_iff.1 (Option.some.inj hcalls)
  obtain ⟨⟨callee, args⟩, hcall, hcallee⟩ := Option.map_eq_some_iff.1 hs
  refine ⟨program, _, s, hprogram, hitems, hbody, ⟨callee, args, .inr hcall, ?_, ?_⟩, fun _ => rfl⟩
  · rw [hcallee]
    decide
  · rw [hcallee]
    intro hname
    exact absurd hname (by decide)

end NgFile
