import NgFile.Diagnostic
import NgFile.Proofs.Classification
import NgFile.Proofs.ScaffoldReading

/-!
# Which file and which stage an error comes from

Every stage hands on the name of the file, so that an error and its message name the file that
was compiled.  The stages run in order: an error of one stage is only reached where no stage
before it fails.
-/

namespace NgFile

open Syntax Lexeme

/-! ## Errors and their files -/

theorem CompileError.file_infix_message (e : CompileError) : e.file <:+: e.message := by
  cases e with
  | missingComponentName file | missingSections file | missingClass file | missingDecorator file
  | invalidMetadataArguments file | invalidConstructorBody file =>
      exact (List.suffix_append _ file).isInfix
  | missingSourceFile file detail | scriptSyntax file detail | unsupportedDeclaration file detail
  | invalidDefineMetadata file detail | outputSyntax file detail =>
      exact (List.infix_append _ file _).trans (List.prefix_append _ detail).isInfix

theorem OffenceOf.file_eq {file script : Text} {s : Stmt} {e : CompileError}
    (h : OffenceOf file script s e) : e.file = file := by
  cases h <;> rfl

/-! ## Scripts that fail -/

/-- A script fails if it does not parse, or else with the first statement that offends. -/
inductive ScriptFails (file script : Text) : CompileError → Prop
  | scriptSyntax (hscript : script ≠ []) {e : SyntaxError} (h : Program.parse script = .error e) :
      ScriptFails file script (.scriptSyntax file e.reason)
  | statement (hscript : script ≠ []) {program : Program} {front rest : List Stmt} {s : Stmt}
      {e : CompileError} (h : Program.parse script = .ok program)
      (hbody : program.body = front ++ s :: rest) (hfront : ∀ r ∈ front, ¬ r.Offends script)
      (hs : OffenceOf file script s e) :
      ScriptFails file script e

theorem ScriptFails.file_eq {file script : Text} {e : CompileError}
    (h : ScriptFails file script e) : e.file = file := by
  cases h with
  | scriptSyntax hscript h => rfl
  | statement hscript h hbody hfront hs => exact hs.file_eq

theorem scriptItems?_eq_error_iff {file script : Text} {e : CompileError} :
    scriptItems? file script = .error e ↔ ScriptFails file script e := by
  constructor
  · intro h
    unfold scriptItems? at h
    split at h
    · cases h
    · rename_i hempty
      have hscript : script ≠ [] := fun heq => hempty (by simp [heq])
      have hclassify := error_of_map_error h
      cases hparse : Program.parse script with
      | error e' =>
          rw [ScriptItem.classify, hparse] at hclassify
          cases hclassify
          exact .scriptSyntax hscript hparse
      | ok program =>
          obtain ⟨front, s, rest, hbody, hfront, hs⟩ :=
            (ScriptItem.classify_eq_error_iff hparse).1 hclassify
          exact .statement hscript hparse hbody hfront hs
  · intro h
    cases h with
    | scriptSyntax hscript h => simp [scriptItems?, hscript, ScriptItem.classify, h, Except.map]
    | statement hscript h hbody hfront hs =>
        have hclassify := (ScriptItem.classify_eq_error_iff h).2 ⟨_, _, _, hbody, hfront, hs⟩
        simp [scriptItems?, hscript, hclassify, Except.map]

/-! ## Compilations that fail -/

section Compilations

variable {input : SourceFile} {options : CompileOptions}

theorem StopsWith.file_eq {e : CompileError} (h : StopsWith input e) :
    e.file = input.fileName := by
  cases h with
  | name hname => rfl
  | sections hname hscript htemplate => rfl
  | scaffold hname hsections h => exact file_of_scaffoldTarget h
  | script hname hsections hbase h => exact (scriptItems?_eq_error_iff.1 h).file_eq

/-- A compilation fails before there is a target, or in development on formatting it. -/
theorem cases_of_compile_error {e : CompileError} (h : compile input options = .error e) :
    StopsWith input e ∨
      options.isProd = false ∧ ∃ t, targetOf input = .ok t ∧ t.format = .error e := by
  rcases cases_of_bind_error h with htarget | ⟨t, ht, hserialize⟩
  · exact .inl (targetOf_eq_error_iff.1 htarget)
  · unfold Target.serialize at hserialize
    split at hserialize
    · cases hserialize
    · rename_i hmode
      exact .inr ⟨by simpa using hmode, t, ht, hserialize⟩

theorem StopsWith.compile_eq {e : CompileError} (h : StopsWith input e) :
    compile input options = .error e :=
  compile_of_targetOf_error (targetOf_eq_error_iff.2 h)

/-- An error carries the name of the file, whichever stage it comes from. -/
theorem file_eq_of_compile {e : CompileError} (h : compile input options = .error e) :
    e.file = input.fileName := by
  rcases cases_of_compile_error h with hstops | ⟨_, t, ht, hformat⟩
  · exact hstops.file_eq
  · obtain ⟨reason, rfl⟩ := Target.eq_outputSyntax_of_format hformat
    exact fileName_of_targetOf ht

theorem not_isOutputSyntax_of_isProd {e : CompileError} (hmode : options.isProd = true)
    (h : compile input options = .error e) : ¬ e.IsOutputSyntax := by
  rcases cases_of_compile_error h with hstops | ⟨hdevelopment, _⟩
  · exact not_isOutputSyntax_of_targetOf (targetOf_eq_error_iff.2 hstops)
  · rw [hmode] at hdevelopment
    cases hdevelopment

theorem extract_of_script (h : (Sections.ofContent input.content).script ≠ []) :
    Sections.extract input = .ok (Sections.ofContent input.content) := by
  simp [Sections.extract, h]

theorem ScriptFails.script_ne_nil {file script : Text} {e : CompileError}
    (h : ScriptFails file script e) : script ≠ [] := by
  cases h with
  | scriptSyntax hscript h => exact hscript
  | statement hscript h hbody hfront hs => exact hscript

/-- A failing script is what a compilation reports, unless its scaffold is not lifted. -/
theorem compile_of_scriptFails {identifier : Text} {e : CompileError}
    (hname : Names.componentIdentifier? input.fileName = some identifier)
    (h : ScriptFails input.fileName (Sections.ofContent input.content).script e) :
    compile input options = .error e ∨
      ¬ IsVerbatim identifier ∧ ∃ e', compile input options = .error e' ∧ e'.IsScaffoldCheck := by
  have hsections := extract_of_script h.script_ne_nil
  cases hbase : scaffoldTarget input.fileName identifier (Sections.ofContent input.content) with
  | ok base =>
      have hitems := scriptItems?_eq_error_iff.2 h
      exact .inl (StopsWith.script hname hsections hbase hitems).compile_eq
  | error e' =>
      refine .inr ⟨fun hverbatim => ?_, e', (StopsWith.scaffold hname hsections hbase).compile_eq,
        isScaffoldCheck_of_scaffoldTarget hbase⟩
      rw [scaffoldTarget_of_isVerbatim hverbatim] at hbase
      cases hbase

/--
An error names the file that was compiled, as do its message and its diagnostic.  A file name
without an identifier counts before anything in the content, missing sections count before the
script, and a failing script counts before the output, which production does not check.
-/
theorem failures_attributed (input : SourceFile) (options : CompileOptions) :
    (∀ e, compile input options = .error e →
      e.file = input.fileName ∧ input.fileName <:+: e.message ∧
        Diagnostic.ofError e = ⟨e.code, e.message, input.fileName⟩ ∧
        (options.isProd = true → ¬ e.IsOutputSyntax)) ∧
    (Names.componentIdentifier? input.fileName = none →
      compile input options = .error (.missingComponentName input.fileName)) ∧
    ∀ identifier, Names.componentIdentifier? input.fileName = some identifier →
      ((Sections.ofContent input.content).script = [] →
        (Sections.ofContent input.content).template = [] →
          compile input options = .error (.missingSections input.fileName)) ∧
      ∀ e, ScriptFails input.fileName (Sections.ofContent input.content).script e →
        compile input options = .error e ∨
          ¬ IsVerbatim identifier ∧
            ∃ e', compile input options = .error e' ∧ e'.IsScaffoldCheck := by
  refine ⟨fun e h => ?_, fun hname => (StopsWith.name hname).compile_eq,
    fun identifier hname => ⟨fun hscript htemplate => ?_, fun e h => ?_⟩⟩
  · have hfile : e.file = input.fileName := file_eq_of_compile h
    refine ⟨hfile, hfile ▸ e.file_infix_message, ?_, fun hmode => ?_⟩
    · rw [Diagnostic.ofError, hfile]
    · exact not_isOutputSyntax_of_isProd hmode h
  · exact (StopsWith.sections hname hscript htemplate).compile_eq
  · exact compile_of_scriptFails hname h

/-- The first offending statement of a script is reported, with the name of the file. -/
theorem failures_attributed_card :
    let input : SourceFile := ⟨"card.ng", "<script lang=\x22ts\x22>const [a] = b;</script>"⟩
    let e : CompileError := .unsupportedDeclaration "card.ng"
      "destructuring is not supported in `const [a] = b;`"
    compile input ⟨false⟩ = .error e ∧ e.file = input.fileName ∧
      input.fileName <:+: e.message := by
  intro input e
  have h : compile input ⟨false⟩ = .error e := by decide +kernel
  obtain ⟨hfile, hmessage, _⟩ := (failures_attributed input ⟨false⟩).1 e h
  exact ⟨h, hfile, hmessage⟩

end Compilations

end NgFile
