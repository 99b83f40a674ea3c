import NgFile.Proofs.Classification
import NgFile.Proofs.ClosedFunctions
import NgFile.Proofs.Edits
import NgFile.Proofs.Placement
import NgFile.Proofs.ScaffoldReading
import NgFile.Render

/-!
# The ends of statements

Every import and every statement of the constructor ends with a semicolon or a brace, so that no
line behind it can be read as a part of it.  A scaffold brings such an import, and whatever item
of a script is promoted, only such texts are added: most of them get their end from promotion,
and the text of a function ends with the brace of its body.  A text with such an end is left as
it is when it is rendered.
-/

namespace NgFile

open Syntax ScriptItem

/-! ## Texts with an end -/

namespace ScriptItem

def EndsStatement (text : Text) : Prop :=
  text.getLast? = some ';' ∨ text.getLast? = some '\x7d'

instance (text : Text) : Decidable (EndsStatement text) :=
  inferInstanceAs (Decidable (_ ∨ _))

theorem EndsStatement.behind {text : Text} (h : EndsStatement text) (front : Text) :
    EndsStatement (front ++ text) := by
  unfold EndsStatement
  rw [List.getLast?_append]
  rcases h with h | h
  · rw [h]
    exact .inl rfl
  · rw [h]
    exact .inr rfl

theorem endsStatement_iff_finishesWith {text : Text} :
    EndsStatement text ↔ (Text.finishesWith ";" text || Text.finishesWith "\x7d" text) = true := by
  rw [Bool.or_eq_true]
  exact or_congr Formatting.finishesWith_singleton_iff.symm
    Formatting.finishesWith_singleton_iff.symm

theorem endsStatement_terminated (text : Text) : EndsStatement (terminated text) := by
  unfold terminated
  extract_lets kept
  split
  · rename_i hends
    exact endsStatement_iff_finishesWith.2 hends
  · exact EndsStatement.behind (by decide) kept

theorem EndsStatement.trimEnd_eq {text : Text} (h : EndsStatement text) :
    Text.trimEnd text = text := by
  refine Text.trimEndBy_of_getLast? _ fun c hc => ?_
  rw [EndsStatement, hc] at h
  rcases h with h | h
  · cases h
    rfl
  · cases h
    rfl

/-- An end is added to the texts that have none, and to no other one. -/
theorem terminated_eq_self_iff {text : Text} : terminated text = text ↔ EndsStatement text := by
  constructor
  · intro h
    rw [← h]
    exact endsStatement_terminated text
  · intro h
    unfold terminated
    rw [h.trimEnd_eq]
    exact if_pos (endsStatement_iff_finishesWith.1 h)

end ScriptItem

/-! ## What items add -/

/-- The text of a function among items ends a statement; promotion ends all other texts itself. -/
def ScriptItem.EndsFunction : ScriptItem → Prop
  | .functionDecl _ text => EndsStatement text
  | _ => True

namespace Contribution

/-- What a contribution adds to the imports and to the constructor ends statements. -/
structure IsTerminated (c : Contribution) : Prop where
  importTexts : ∀ text ∈ c.importTexts, EndsStatement text
  statements : ∀ text ∈ c.statements, EndsStatement text

theorem isTerminated_promoted {name redeclaration assignment : Text}
    (hredeclaration : EndsStatement redeclaration) (hassignment : EndsStatement assignment) :
    (promoted name redeclaration assignment).IsTerminated :=
  ⟨List.forall_mem_nil _,
    List.forall_mem_cons.2 ⟨hredeclaration, List.forall_mem_singleton.2 hassignment⟩⟩

theorem endsStatement_plainAssignment (name : Text) : EndsStatement (plainAssignment name) :=
  EndsStatement.behind (by decide) _

theorem endsStatement_boundAssignment (name : Text) : EndsStatement (boundAssignment name) :=
  EndsStatement.behind (by decide) _

theorem endsStatement_hookFunction (isAsync : Bool) (statements : List Text) :
    EndsStatement (Contribution.hookFunction isAsync statements) := by
  cases isAsync <;> exact EndsStatement.behind (by decide) _

/-- An item adds texts with ends, if the text of its function has one. -/
theorem isTerminated_ofItem {item : ScriptItem} (h : item.EndsFunction) :
    (ofItem item).IsTerminated := by
  cases item with
  | importDecl text default fromNgFile =>
      exact ⟨List.forall_mem_singleton.2 (endsStatement_terminated text), List.forall_mem_nil _⟩
  | variableDecl keyword name declarator isFunction =>
      refine isTerminated_promoted (EndsStatement.behind (by decide) _) ?_
      split
      · exact endsStatement_boundAssignment name
      · exact endsStatement_plainAssignment name
  | functionDecl name text => exact isTerminated_promoted h (endsStatement_boundAssignment name)
  | onInit isAsync statements =>
      have hhook : (promoted "onInit" (Contribution.hookFunction isAsync statements)
          (boundAssignment "onInit")).IsTerminated :=
        isTerminated_promoted (endsStatement_hookFunction isAsync statements)
          (endsStatement_boundAssignment "onInit")
      exact ⟨hhook.importTexts, hhook.statements⟩
  | call text =>
      exact ⟨List.forall_mem_nil _, List.forall_mem_singleton.2 (endsStatement_terminated text)⟩
  | defineMetadata | other => exact ⟨List.forall_mem_nil _, List.forall_mem_nil _⟩

end Contribution

/-! ## Targets -/

namespace Target

/-- The imports of a target and the statements of its constructor end statements. -/
structure IsTerminated (t : Target) : Prop where
  importTexts : ∀ text ∈ t.importTexts, EndsStatement text
  constructorBody : ∀ text ∈ t.entity.constructorBody, EndsStatement text

theorem isTerminated_extend {t : Target} {c : Contribution} (ht : t.IsTerminated)
    (hc : c.IsTerminated) : (t.extend c).IsTerminated :=
  ⟨List.forall_mem_append.2 ⟨ht.importTexts, hc.importTexts⟩,
    List.forall_mem_append.2 ⟨ht.constructorBody, hc.statements⟩⟩

theorem isTerminated_promote {t : Target} {items : List ScriptItem} (ht : t.IsTerminated)
    (hitems : ∀ item ∈ items, item.EndsFunction) : (t.promote items).IsTerminated := by
  unfold promote
  induction items generalizing t with
  | nil => exact ht
  | cons item rest ih =>
      obtain ⟨hitem, hrest⟩ := List.forall_mem_cons.1 hitems
      rw [List.foldl_cons, apply_eq_extend]
      exact ih (isTerminated_extend ht (Contribution.isTerminated_ofItem hitem)) hrest

end Target

/-! ## Rendering -/

namespace Render

/-- Some texts as they are, each on a line of its own behind an indentation. -/
def onLines (indent : Text) (texts : List Text) : Text :=
  texts.flatMap fun text => indent ++ text ++ ['\n']

/-- To end imports once more changes nothing. -/
theorem importLines_eq {t : Target} (h : t.IsTerminated) :
    importLines t = onLines [] t.importTexts := by
  rw [importLines, onLines, List.flatMap_def]
  refine congrArg List.flatten (List.map_congr_left fun text htext => ?_)
  rw [terminated_eq_self_iff.2 (h.importTexts text htext)]
  rfl

theorem lines_eq (statements : List Text) : lines 2 statements = onLines "    " statements := by
  rw [lines, onLines, List.flatMap_def]
  rfl

theorem constructor_eq (body : List Text) :
    ∃ front rest, constructor body = front ++ onLines "    " body ++ rest ∧
      (body ≠ [] → front = "  constructor() \x7b\n" ∧ rest = "  \x7d\n") := by
  cases body with
  | nil => exact ⟨[], "  constructor() \x7b\x7d\n", rfl, fun h => absurd rfl h⟩
  | cons text texts =>
      refine ⟨"  constructor() \x7b\n", "  \x7d\n", ?_, fun _ => ⟨rfl, rfl⟩⟩
      rw [← lines_eq, constructor, List.isEmpty_cons, if_neg Bool.false_ne_true,
        List.append_assoc _ indent]
      rfl

/-- A line ends in front of the constructor. -/
theorem exists_line_in_front (c : TargetClass) :
    ∃ front : Text, classLead ++ c.name ++ " \x7b\n" ++ properties c.properties =
      front ++ ['\n'] := by
  unfold properties
  split
  · exact ⟨classLead ++ c.name ++ " \x7b", by simp⟩
  · exact ⟨classLead ++ c.name ++ " \x7b\n" ++ (c.properties.map property).flatten, by simp⟩

/-- The imports and the statements are rendered as they are, in their order and each on a line of
its own: the imports at the beginning, the statements between the braces of the constructor. -/
theorem exists_render {t : Target} (h : t.IsTerminated) :
    ∃ front rest : Text,
      t.render = onLines [] t.importTexts ++ front ++ onLines "    " t.entity.constructorBody ++
        rest ∧
      (t.entity.constructorBody ≠ [] →
        ("\n  constructor() \x7b\n" : Text) <:+ front ∧ ("  \x7d\n" : Text) <+: rest) := by
  obtain ⟨opening, closing, hconstructor, hbody⟩ := constructor_eq t.entity.constructorBody
  obtain ⟨head, hhead⟩ := exists_line_in_front t.entity
  let tail : Text := (t.entity.methods.map method).flatten ++ "\x7d\n"
  have hentity : entity t.entity = head ++ ['\n'] ++ opening ++
      onLines "    " t.entity.constructorBody ++ closing ++ tail := by
    rw [entity, hhead, hconstructor]
    simp [tail]
  refine ⟨"\n@" ++ decoratorCall t.entity ++ "\n" ++ (head ++ ['\n'] ++ opening),
    closing ++ tail, ?_, fun hne => ?_⟩
  · rw [Target.render, importLines_eq h, hentity]
    simp
  · obtain ⟨rfl, rfl⟩ := hbody hne
    refine ⟨?_, List.prefix_append _ _⟩
    rw [List.append_assoc head, ← List.append_assoc]
    exact List.suffix_append _ _

end Render

/-! ## Scripts -/

namespace ScriptItem

variable {file script : Text} {s : Stmt} {item : ScriptItem} {items : List ScriptItem}

/-- The item of a statement has the text of a function only with the brace behind its body. -/
theorem endsFunction_of_itemOf (h : ItemOf script s item) (hs : s.IsClosed script) :
    item.EndsFunction := by
  cases h with
  | function hdeclared hbody hname =>
      have hbrace := hs.2
      rw [hdeclared] at hbrace
      exact .inr (hbrace hbody).getLast?_slice
  | _ => trivial

theorem endsFunction_of_items {statements : List Stmt}
    (h : List.Forall₂ (ItemOf script) statements items)
    (hclosed : ∀ s ∈ statements, s.IsClosed script) : ∀ item ∈ items, item.EndsFunction := by
  induction h with
  | nil => exact List.forall_mem_nil _
  | cons hitem _ ih =>
      obtain ⟨hs, hrest⟩ := List.forall_mem_cons.1 hclosed
      exact List.forall_mem_cons.2 ⟨endsFunction_of_itemOf hitem hs, ih hrest⟩

theorem endsFunction_of_classify (h : classify file script = .ok items) :
    ∀ item ∈ items, item.EndsFunction := by
  obtain ⟨program, hprogram⟩ := exists_parse_of_classify h
  exact endsFunction_of_items ((classify_eq_ok_iff hprogram).1 h)
    (Program.isClosed_of_parse hprogram)

end ScriptItem

namespace Scaffold

open Lexeme

theorem isTerminated_target (file : Text) (names : Names) (template style : Text)
    (kind : EntityKind) : (target file names template style kind).IsTerminated := by
  refine ⟨List.forall_mem_singleton.2 ?_, List.forall_mem_nil _⟩
  rw [texts_importLexemes]
  exact EndsStatement.behind (by decide) _

/--
Whatever script is promoted into a scaffold that can be lifted, every import and every statement
of the constructor ends with a semicolon or a brace.  To end an import once more changes nothing,
and the imports and the statements are rendered as they are, in their order, each on a line of
its own: the imports at the beginning, the statements between the braces of the constructor.
-/
theorem promoted_statements_end {identifier : Text} (h : IsVerbatim identifier)
    (file template style : Text) (kind : EntityKind) :
    ∃ t, Target.ofScaffold file (synthesize (Names.ofIdentifier identifier) template style kind)
        kind = .ok t ∧
      ∀ scriptFile script items, classify scriptFile script = .ok items →
        let s := t.promote items
        (∀ text ∈ s.importTexts ++ s.entity.constructorBody, EndsStatement text) ∧
        (∀ text ∈ s.importTexts, terminated text = text) ∧
        ∃ front rest : Text,
          s.render = Render.onLines [] s.importTexts ++ front ++
            Render.onLines "    " s.entity.constructorBody ++ rest ∧
          (s.entity.constructorBody ≠ [] →
            ("\n  constructor() \x7b\n" : Text) <:+ front ∧ ("  \x7d\n" : Text) <+: rest) := by
  have hselector := (Names.isVerbatim_selector_iff identifier).2 h
  refine ⟨_, ofScaffold_synthesize hselector file template style kind, ?_⟩
  intro scriptFile script items hitems s
  have hs : s.IsTerminated :=
    Target.isTerminated_promote (isTerminated_target _ _ _ _ _) (endsFunction_of_classify hitems)
  refine ⟨List.forall_mem_append.2 ⟨hs.importTexts, hs.constructorBody⟩, ?_,
    Render.exists_render hs⟩
  exact fun text htext => terminated_eq_self_iff.2 (hs.importTexts text htext)

/-- An import and a call that lack a semicolon get one, and a function is left as it is. -/
theorem promoted_statements_end_card :
    let script : Text := "import a from 'a'\nfunction start() \x7b\x7d\nstart()"
    let imports : List Text := ["import \x7b Directive \x7d from '@angular/core';",
      "import a from 'a';"]
    let body : List Text := ["function start() \x7b\x7d", "this.start = start.bind(this);",
      "start();"]
    IsVerbatim "card" ∧ ∃ t items,
      Target.ofScaffold "card.ng" (synthesize (Names.ofIdentifier "card") [] [] .directive)
        .directive = .ok t ∧
      classify "card.ng" script = .ok items ∧
      (∀ text ∈ imports ++ body, EndsStatement text) ∧
      ∃ front rest : Text, (t.promote items).render =
        Render.onLines [] imports ++ front ++ Render.onLines "    " body ++ rest := by
  intro script imports body
  have hcard : IsVerbatim "card" := by decide
  have hitems : classify "card.ng" script = .ok
      [.importDecl "import a from 'a'" (some "a") false,
        .functionDecl "start" "function start() \x7b\x7d", .call "start()"] := by
    decide +kernel
  obtain ⟨t, hlift, hends⟩ := promoted_statements_end hcard "card.ng" [] [] .directive
  obtain ⟨hall, -, front, rest, hrender, -⟩ := hends "card.ng" script _ hitems
  have htarget := ofScaffold_synthesize ((Names.isVerbatim_selector_iff "card").2 hcard)
    "card.ng" [] [] .directive
  obtain rfl : t = _ := Except.ok.inj (hlift.symm.trans htarget)
  exact ⟨hcard, _, _, hlift, hitems, hall, front, rest, hrender⟩

end Scaffold

end NgFile
