import NgFile.Proofs.Failures
import NgFile.Proofs.Naming
import NgFile.Proofs.ScaffoldReading

/-!
# The target of a scaffold

Rendering gives back the scaffold that a target was lifted from, so a file without a script
is compiled to its scaffold.  Edits of the target keep what the scaffold has put into it.
-/

namespace NgFile

open Lexeme

/-! ## Rendering -/

/-- Indenting every piece is indenting the first one and the lines between them. -/
theorem Text.joinWith_indented {ts : List Text} (hts : ts ≠ []) :
    Text.joinWith ",\n" (ts.map fun t => Render.indent ++ t) =
      "  " ++ Text.joinWith ",\n  " ts := by
  induction ts with
  | nil => exact absurd rfl hts
  | cons t more ih =>
      cases more with
      | nil => rfl
      | cons t' more =>
          have hleft : Text.joinWith ",\n" ((t :: t' :: more).map fun t => Render.indent ++ t) =
              Render.indent ++ t ++ ",\n" ++
                Text.joinWith ",\n" ((t' :: more).map fun t => Render.indent ++ t) := rfl
          have hright : Text.joinWith ",\n  " (t :: t' :: more) =
              t ++ (",\n" ++ "  ") ++ Text.joinWith ",\n  " (t' :: more) := rfl
          rw [hleft, ih (List.cons_ne_nil _ _), hright]
          simp only [List.append_assoc]
          rfl

namespace Scaffold

section Parts

variable (file : Text) (names : Names) (template style : Text) (kind : EntityKind)

theorem decoratorCall_target :
    Render.decoratorCall (target file names template style kind).entity =
      texts (callLexemes kind.decoratorName (plainEntries names template style kind)) := by
  have hne : (entries names template style kind).map entryText ≠ [] := by
    cases kind <;> exact List.cons_ne_nil _ _
  have hisEmpty :
      (Metadata.ofEntries (entries names template style kind)).isEmpty = false := by
    rw [Metadata.isEmpty, entries_ofEntries]
    rfl
  have hentries : (plainEntries names template style kind).map (fun e => entryText e.entry) =
      (entries names template style kind).map entryText := by
    rw [← map_entry_plainEntries, List.map_map]
    rfl
  have hlines : (entries names template style kind).map Render.entry =
      ((entries names template style kind).map entryText).map fun t => Render.indent ++ t := by
    rw [List.map_map]
    refine List.map_congr_left fun e _ => ?_
    simp only [Render.entry, entryText, Function.comp_apply, List.append_assoc]
  rw [texts_callLexemes, hentries, Render.decoratorCall]
  simp only [target, hisEmpty, entries_ofEntries, hlines, Text.joinWith_indented hne]
  simp only [Bool.false_eq_true, if_false, List.append_assoc]
  rfl

theorem importLines_target :
    Render.importLines (target file names template style kind) =
      texts (importLexemes kind) ++ "\n" := by
  cases kind <;> rfl

theorem entity_target :
    Render.entity (target file names template style kind).entity = texts classLexemes := rfl

end Parts

/-- What is lifted from a scaffold is rendered as the scaffold. -/
theorem render_target (file : Text) (names : Names) (template style : Text) (kind : EntityKind) :
    (target file names template style kind).render = synthesize names template style kind := by
  have hstart (ls : List Lexeme) : texts (.newline :: .newline :: .mark .at :: ls) =
      "\n" ++ "\n@" ++ texts ls := rfl
  have hclass : texts (.newline :: classLexemes) = "\n" ++ texts classLexemes := rfl
  rw [← texts_lexemes, lexemes, texts_append, hstart, texts_append, hclass, Target.render,
    importLines_target, entity_target, decoratorCall_target]
  simp only [List.append_assoc]

/-- The target of a file without a script is that of its scaffold. -/
theorem targetOf_of_no_script {file content identifier : Text}
    (hidentifier : Names.componentIdentifier? file = some identifier)
    (h : IsVerbatim identifier) (hscript : (Sections.ofContent content).script = []) :
    targetOf ⟨file, content⟩ =
      if (Sections.ofContent content).template = [] then .error (.missingSections file)
      else
        .ok (target file (Names.ofIdentifier identifier) (Sections.ofContent content).template
          (Sections.ofContent content).style .component) := by
  have hselector := (Names.isVerbatim_selector_iff identifier).2 h
  by_cases htemplate : (Sections.ofContent content).template = []
  · have hextract : Sections.extract ⟨file, content⟩ = .error (.missingSections file) := by
      simp [Sections.extract, hscript, htemplate]
    simp only [targetOf, hidentifier, hextract, if_pos htemplate]
    rfl
  · have hextract : Sections.extract ⟨file, content⟩ = .ok (Sections.ofContent content) := by
      simp [Sections.extract, htemplate]
    have hkind : EntityKind.ofTemplate (Sections.ofContent content).template = .component := by
      simp [EntityKind.ofTemplate, htemplate]
    have hitems : scriptItems? file (Sections.ofContent content).script = .ok none := by
      rw [hscript]
      rfl
    simp only [targetOf, hidentifier, hextract, scaffoldTarget, hkind,
      ofScaffold_synthesize hselector, hitems, if_neg htemplate, bind, Except.bind]
    rfl

/--
A scaffold is lifted to its import and its entries, with the texts of their values, and the
lifted target is rendered as the scaffold.  So compiling a file without a script gives its
scaffold, or the error that it has no template either.
-/
theorem scaffold_round_trip {identifier : Text} (h : IsVerbatim identifier) (file : Text) :
    (∀ template style kind,
      ∃ t, Target.ofScaffold file (synthesize (Names.ofIdentifier identifier) template style kind)
          kind = .ok t ∧
        t.importTexts =
          ["import \x7b " ++ coreImports kind ++ " \x7d from '" ++ coreModule ++ "';"] ∧
        t.entity.metadata.entries = entries (Names.ofIdentifier identifier) template style kind ∧
        t.entity.properties = [] ∧ t.entity.methods = [] ∧ t.entity.constructorBody = [] ∧
        t.render = synthesize (Names.ofIdentifier identifier) template style kind) ∧
    (Names.componentIdentifier? file = some identifier →
      ∀ content, (Sections.ofContent content).script = [] →
        compile ⟨file, content⟩ ⟨true⟩ =
          if (Sections.ofContent content).template = [] then .error (.missingSections file)
          else
            .ok (synthesize (Names.ofIdentifier identifier) (Sections.ofContent content).template
              (Sections.ofContent content).style .component)) := by
  refine ⟨fun template style kind => ?_, fun hidentifier content hscript => ?_⟩
  · have hselector := (Names.isVerbatim_selector_iff identifier).2 h
    refine ⟨_, ofScaffold_synthesize hselector file template style kind, ?_, ?_, rfl, rfl, rfl,
      render_target file _ template style kind⟩
    · rw [target, texts_importLexemes]
    · exact entries_ofEntries _ template style kind
  · have htarget := targetOf_of_no_script hidentifier h hscript
    split
    · rename_i htemplate
      rw [if_pos htemplate] at htarget
      exact compile_of_targetOf_error htarget
    · rename_i htemplate
      rw [if_neg htemplate] at htarget
      rw [compile_of_targetOf_ok htarget, Target.serialize, render_target]
      rfl

/-- The style of a file with a template is part of the scaffold that it compiles to. -/
theorem scaffold_round_trip_card :
    IsVerbatim "card" ∧ Names.componentIdentifier? "card.ng" = some "card" ∧
      compile ⟨"card.ng", "<style>p\x7b\x7d</style><template>$\x7b</template>"⟩ ⟨true⟩ =
        .ok (synthesize (Names.ofIdentifier "card") "$\x7b" "p\x7b\x7d" .component) := by
  have hcard : IsVerbatim "card" := by decide
  have hidentifier : Names.componentIdentifier? "card.ng" = some "card" := by decide
  refine ⟨hcard, hidentifier, ?_⟩
  exact (scaffold_round_trip hcard "card.ng").2 hidentifier _ (by decide)

/-- A file with neither script nor template has no scaffold to be compiled to. -/
theorem missingSections_of_style :
    let content : Text := "<style>p\x7b\x7d</style>"
    Names.componentIdentifier? "card.ng" = some "card" ∧ IsVerbatim "card" ∧
      Sections.innerText? Sections.scriptTags content = none ∧
      compile ⟨"card.ng", content⟩ ⟨true⟩ = .error (.missingSections "card.ng") ∧
      ∀ template style kind, compile ⟨"card.ng", content⟩ ⟨true⟩ ≠
        .ok (synthesize (Names.ofIdentifier "card") template style kind) := by
  intro content
  have hcompile : compile ⟨"card.ng", content⟩ ⟨true⟩ = .error (.missingSections "card.ng") := by
    decide +kernel
  refine ⟨by decide, by decide, by decide, hcompile, fun template style kind => ?_⟩
  rw [hcompile]
  exact nofun

/-! ## Edits -/

def keys : EntityKind → List Text
  | .component => ["standalone", "selector", "changeDetection", "template"]
  | .directive => ["standalone", "selector"]

theorem keys_target (file : Text) (names : Names) (template style : Text) (kind : EntityKind) :
    (target file names template style kind).keys = keys kind := by
  rw [Target.keys, Metadata.keys, target, entries_ofEntries]
  cases kind <;> rfl

/--
Whatever edits are made to the target of a scaffold, in every state its keys are distinct and
those of the scaffold are among them, the file, the kind and the class are those of the
scaffold, and only writing the key `exposes` makes it metadata.  From each state on, further
edits keep all keys in their order but for the selector, and only append to the lists.
-/
theorem edit_keeps {identifier : Text} (h : IsVerbatim identifier) (file template style : Text)
    (kind : EntityKind) :
    ∃ t, Target.ofScaffold file (synthesize (Names.ofIdentifier identifier) template style kind)
        kind = .ok t ∧
      ∀ edits : List Edit,
        let s := t.edit edits
        s.keys.Nodup ∧ keys kind ⊆ s.keys ∧
        s.fileName = file ∧ s.kind = kind ∧ s.entity.name = entityClassName ∧
        s.entity.decorator = kind.decoratorName ∧
        (Metadata.exposesKey ∈ s.keys →
          ∃ value, Edit.upsert Metadata.exposesKey value ∈ edits) ∧
        (∀ e : Edit, Metadata.exposesKey ∈ (e.apply s).keys → Metadata.exposesKey ∈ s.keys ∨
          ∃ value, e = .upsert Metadata.exposesKey value) ∧
        ∀ later : List Edit, s.Evolves (s.edit later) := by
  have hselector := (Names.isVerbatim_selector_iff identifier).2 h
  refine ⟨_, ofScaffold_synthesize hselector file template style kind, fun edits => ?_⟩
  have hevolves := Target.evolves_edit
    (target file (Names.ofIdentifier identifier) template style kind) edits
  have hkeys := keys_target file (Names.ofIdentifier identifier) template style kind
  have hnone : Metadata.exposesKey ∉
      (target file (Names.ofIdentifier identifier) template style kind).keys := by
    rw [hkeys]
    cases kind <;> decide
  refine ⟨Metadata.keys_nodup _, ?_, hevolves.fileName, hevolves.kind, hevolves.name,
    hevolves.decorator, ?_, ?_, ?_⟩
  · rw [← hkeys]
    exact hevolves.metadata.subset
  · intro hexposes
    exact (Target.exposesKey_mem_edit hexposes).resolve_left hnone
  · intro e he
    exact Target.exposesKey_mem_apply he
  · intro later
    exact Target.evolves_edit _ later

/-- A new selector and a written `exposes` leave the keys of the scaffold of a card in place. -/
theorem edit_keeps_card :
    IsVerbatim "card" ∧
      ∃ t, Target.ofScaffold "card.ng"
          (synthesize (Names.ofIdentifier "card") "<p></p>" [] .component) .component = .ok t ∧
        let edits : List Edit :=
          [.mergeMetadata [⟨"selector", "'x'"⟩, ⟨"exposes", "[a]"⟩], .upsert "exposes" "1"]
        keys .component ⊆ (t.edit edits).keys ∧ t.Evolves (t.edit edits) := by
  have hcard : IsVerbatim "card" := by decide
  obtain ⟨t, hlift, hkeeps⟩ := edit_keeps hcard "card.ng" "<p></p>" [] .component
  obtain ⟨_, hkeys, _⟩ := hkeeps
    [.mergeMetadata [⟨"selector", "'x'"⟩, ⟨"exposes", "[a]"⟩], .upsert "exposes" "1"]
  obtain ⟨_, _, _, _, _, _, _, _, hevolves⟩ := hkeeps []
  exact ⟨hcard, t, hlift, hkeys, hevolves _⟩

end Scaffold

end NgFile
