import NgFile.Proofs.Failures
import NgFile.Proofs.PlainScripts

/-!
# Production and development

Both modes compile a file to the same target.  Production writes it out as it is, and
development reads what it writes again to format it.  So production accepts whatever
development accepts, and what only production accepts is output that is not a script.  Plain
scripts have no such output: both modes accept them.
-/

namespace NgFile

open Syntax Syntax.Parser Lexeme

namespace CompileOptions

def production : CompileOptions :=
  ⟨true⟩

def development : CompileOptions :=
  ⟨false⟩

end CompileOptions

open CompileOptions

def Accepted (input : SourceFile) (options : CompileOptions) : Prop :=
  ∃ text, compile input options = .ok text

theorem accepted_iff_isOk (input : SourceFile) (options : CompileOptions) :
    Accepted input options ↔ (compile input options).isOk = true := by
  unfold Accepted
  cases compile input options with
  | ok text => exact ⟨fun _ => rfl, fun _ => ⟨text, rfl⟩⟩
  | error e =>
      constructor
      · rintro ⟨text, h⟩
        cases h
      · intro h
        cases h

instance (input : SourceFile) (options : CompileOptions) : Decidable (Accepted input options) :=
  decidable_of_iff _ (accepted_iff_isOk input options).symm

/-! ## The two modes -/

variable {input : SourceFile} {t : Target} {e : CompileError}

theorem accepted_of_isPlain (h : targetOf input = .ok t) (ht : t.IsPlain)
    (options : CompileOptions) : Accepted input options := by
  obtain ⟨text, hformat⟩ := Target.format_of_isPlain ht
  have hcompile : compile input options = t.serialize options.isProd := compile_of_targetOf_ok h
  unfold Accepted
  rw [hcompile, Target.serialize]
  split
  · exact ⟨_, rfl⟩
  · exact ⟨text, hformat⟩

theorem not_accepted_of_targetOf_error (h : targetOf input = .error e)
    (options : CompileOptions) : ¬ Accepted input options := by
  rintro ⟨text, htext⟩
  rw [compile_of_targetOf_error h] at htext
  cases htext

/-- The errors of production are those of development that are not about output. -/
theorem compile_production_error_iff (input : SourceFile) (e : CompileError) :
    compile input production = .error e ↔
      compile input development = .error e ∧ ¬ e.IsOutputSyntax := by
  cases htarget : targetOf input with
  | error e' =>
      rw [compile_of_targetOf_error htarget, compile_of_targetOf_error htarget]
      constructor
      · intro h
        cases h
        exact ⟨rfl, not_isOutputSyntax_of_targetOf htarget⟩
      · exact fun h => h.1
  | ok t =>
      rw [compile_of_targetOf_ok htarget, compile_of_targetOf_ok htarget]
      constructor
      · intro h
        cases h
      · intro ⟨h, hother⟩
        exact absurd (isOutputSyntax_of_serialize h) hother

/-- What only production accepts is reported by development as output that is not a script. -/
theorem outputSyntax_of_accepted_production (hproduction : Accepted input production)
    (hdevelopment : ¬ Accepted input development) :
    ∃ reason, compile input development = .error (.outputSyntax input.fileName reason) := by
  cases htarget : targetOf input with
  | error e => exact absurd hproduction (not_accepted_of_targetOf_error htarget production)
  | ok t =>
      have hcompile : compile input development = t.format := compile_of_targetOf_ok htarget
      cases hformat : t.format with
      | ok text => exact absurd ⟨text, hcompile.trans hformat⟩ hdevelopment
      | error e =>
          obtain ⟨reason, rfl⟩ := Target.eq_outputSyntax_of_format hformat
          rw [fileName_of_targetOf htarget] at hformat
          exact ⟨reason, hcompile.trans hformat⟩

/-- What development accepts production accepts. -/
theorem accepted_production_of_development (h : Accepted input development) :
    Accepted input production := by
  cases htarget : targetOf input with
  | error e => exact absurd h (not_accepted_of_targetOf_error htarget development)
  | ok t => exact ⟨t.render, compile_of_targetOf_ok htarget⟩

/-! ## Plain files -/

/-- A file whose identifier can stand in quotes and whose script has plain items only. -/
structure SourceFile.IsPlain (input : SourceFile) : Prop where
  identifier : ∀ identifier ∈ Names.componentIdentifier? input.fileName, IsVerbatim identifier
  script : ∀ items, ScriptItem.classify input.fileName (Sections.ofContent input.content).script =
    .ok items → ∀ item ∈ items, item.IsPlain

theorem eq_ofContent_of_extract {sections : Sections}
    (h : Sections.extract input = .ok sections) : sections = Sections.ofContent input.content := by
  unfold Sections.extract at h
  dsimp only at h
  split at h
  · cases h
  · exact (Except.ok.inj h).symm

theorem targetOf_of_classify {identifier : Text} {sections : Sections} {items : List ScriptItem}
    (hidentifier : Names.componentIdentifier? input.fileName = some identifier)
    (hverbatim : IsVerbatim identifier) (hsections : Sections.extract input = .ok sections)
    (hscript : sections.script ≠ [])
    (hitems : ScriptItem.classify input.fileName sections.script = .ok items) :
    targetOf input = .ok ((Scaffold.target input.fileName (Names.ofIdentifier identifier)
      sections.template sections.style (EntityKind.ofTemplate sections.template)).withScript
        (some items)) := by
  have hsome : scriptItems? input.fileName sections.script = .ok (some items) := by
    rw [scriptItems?, List.isEmpty_eq_false_iff.2 hscript, hitems]
    rfl
  simp only [targetOf, hidentifier, hsections, scaffoldTarget_of_isVerbatim hverbatim, hsome, bind,
    Except.bind]
  rfl

/-- A plain file that has a target has a plain one. -/
theorem isPlain_of_targetOf (hinput : input.IsPlain) (h : targetOf input = .ok t) :
    t.IsPlain := by
  obtain ⟨identifier, sections, base, items, hidentifier, hsections, hbase, hitems, rfl⟩ :=
    exists_of_targetOf_ok h
  have hverbatim := hinput.identifier identifier hidentifier
  have hcontent := eq_ofContent_of_extract hsections
  rw [scaffoldTarget_of_isVerbatim hverbatim] at hbase
  cases hbase
  refine isPlain_withScript ((Names.isVerbatim_selector_iff identifier).2 hverbatim) _ _ _ _ ?_
  rintro list rfl
  unfold scriptItems? at hitems
  split at hitems
  · cases hitems
  · cases hclassify : ScriptItem.classify input.fileName sections.script with
    | error e =>
        rw [hclassify] at hitems
        cases hitems
    | ok items =>
        rw [hclassify] at hitems
        cases hitems
        exact hinput.script list (hcontent ▸ hclassify)

/--
All errors are the same in both modes but that development may find that its output is not a
script, and then it reports just that.  So it accepts no more than production does.  Plain files
have no such output, and both modes accept the same of them.
-/
theorem compile_modes (input : SourceFile) :
    (∀ e, compile input production = .error e ↔
      compile input development = .error e ∧ ¬ e.IsOutputSyntax) ∧
    (Accepted input development → Accepted input production) ∧
    (Accepted input production → ¬ Accepted input development →
      ∃ reason, compile input development = .error (.outputSyntax input.fileName reason)) ∧
    (input.IsPlain → (Accepted input production ↔ Accepted input development)) := by
  refine ⟨compile_production_error_iff input, accepted_production_of_development,
    outputSyntax_of_accepted_production, fun hinput => ⟨fun h => ?_,
      accepted_production_of_development⟩⟩
  cases htarget : targetOf input with
  | error e => exact absurd h (not_accepted_of_targetOf_error htarget production)
  | ok t => exact accepted_of_isPlain htarget (isPlain_of_targetOf hinput htarget) development

/-! ## A plain component, and one that is not -/

def cardSections : Sections where
  script :=
    "import Badge from './badge.ng';\n" ++
    "const n = use(0);\n" ++
    "defineMetadata(\x7b exposes: [Math], imports: [Tip], 'host': \x7b role: 'row' \x7d \x7d);\n" ++
    "onInit(async () => \x7b start(); \x7d);\n" ++
    "effect(() => log(n * 2))"
  template := "x"
  style := []

def cardFile : SourceFile :=
  ⟨"card.ng",
    "<script lang=\x22ts\x22>" ++ cardSections.script ++ "</script><template>x</template>"⟩

def cardItems : List ScriptItem :=
  [.importDecl "import Badge from './badge.ng';" (some "Badge") true,
    .variableDecl "const" "n" "n = use(0)" false,
    .defineMetadata [⟨"exposes", "[Math]"⟩, ⟨"imports", "[Tip]"⟩,
      ⟨"host", "\x7b role: 'row' \x7d"⟩],
    .onInit true ["start();"], .call "effect(() => log(n * 2))"]

theorem extract_cardFile : Sections.extract cardFile = .ok cardSections := by
  decide +kernel

theorem classify_cardSections :
    ScriptItem.classify cardFile.fileName cardSections.script = .ok cardItems := by
  decide +kernel

theorem isPlain_cardItems : ∀ item ∈ cardItems, item.IsPlain := by
  have himport : Spelled Import (ScriptItem.terminated "import Badge from './badge.ng';") :=
    ⟨[.keyword .kwImport, .space, .name "Badge", .space, .keyword .kwFrom, .space,
      .string "./badge.ng", .mark .semicolon], by decide, by decide,
      fun gap pos => .clause .default⟩
  have hvariable : IsPlainStatement "const n = use(0);" :=
    ⟨true, [.keyword .kwConst, .space, .name "n", .space, .operator .equal, .space,
      .name "use", .mark .parenOpen, .numeral "0", .mark .parenClose, .mark .semicolon],
      by decide, by decide, fun gap pos => .closed (.declaration .constWord (.value (.single
        (.atom (.name _) (.call (.items (.lastItem (.value (.single (.atom (.number _) .noLinks)))))
          .noLinks)))))⟩
  have hname : ∀ text ∈ ([("Tip" : Text)]), Spelled (Phrase .assignment) text :=
    List.forall_mem_singleton.2 (IsName.spelled (by decide))
  have hlist : Spelled (Phrase .assignment) "[Tip]" := spelled_arrayLiteral hname
  have helements (elements : List Text) (h : IsArrayOf "[Tip]" elements) :
      ∀ text ∈ elements, Spelled (Phrase .assignment) text := by
    have hknown : IsArrayOf "[Tip]" ["Tip"] := by decide +kernel
    rw [← arrayElements?_eq_some_iff] at h hknown
    cases h.symm.trans hknown
    exact hname
  have hhost : Spelled (Phrase .assignment) "\x7b role: 'row' \x7d" :=
    ⟨[.mark .braceOpen, .space, .name "role", .mark .colon, .space, .string "row", .space,
      .mark .braceClose], by decide, by decide, fun gap pos => .value (.single (.object
        (.entries (.lastEntry (.word (.name _)) (.value (.single (.atom (.string _) .noLinks)))))
        .noLinks))⟩
  have hstart : IsPlainStatement "start();" :=
    ⟨true, [.name "start", .mark .parenOpen, .mark .parenClose, .mark .semicolon], by decide,
      by decide, fun gap pos => .closed (.expression (.name _) (.value (.single
        (.atom (.name _) (.call .noItems .noLinks)))))⟩
  have heffect : IsPlainStatement (ScriptItem.terminated "effect(() => log(n * 2))") :=
    ⟨true, [.name "effect", .mark .parenOpen, .mark .parenOpen, .mark .parenClose, .space,
      .operator .arrow, .space, .name "log", .mark .parenOpen, .name "n", .space, .operator .star,
      .space, .numeral "2", .mark .parenClose, .mark .parenClose, .mark .semicolon], by decide,
      by decide, fun gap pos => .closed (.expression (.name _) (.value (.single
        (.atom (.name _) (.call (.items (.lastItem (.arrow .none (by simp [gapAfter])
          (.concise (by simp) (.value (.single (.atom (.name _) (.call (.items (.lastItem
            (.value (.operator .star (.atom (.name _) .noLinks)
              (.single (.atom (.number _) .noLinks)))))) .noLinks)))))))) .noLinks)))))⟩
  have hbinding (name : Text) (h : name ∈ (ScriptItem.importDecl "import Badge from './badge.ng';"
      (some "Badge") true).componentName?) : IsName name := by
    obtain rfl : "Badge" = name := Option.some.inj h
    decide
  intro item hitem
  simp only [cardItems, List.mem_cons, List.not_mem_nil, or_false] at hitem
  obtain rfl | rfl | rfl | rfl | rfl := hitem
  · exact .importDecl himport hbinding
  · exact .variableDecl (by decide) hvariable
  · have hexposes : MetadataEntry.IsPlainGiven ⟨"exposes", "[Math]"⟩ := .exposes rfl (by decide)
    have himports : MetadataEntry.IsPlainGiven ⟨"imports", "[Tip]"⟩ :=
      .entry (by decide) ⟨by decide, hlist⟩ fun _ => helements
    have hentry : MetadataEntry.IsPlainGiven ⟨"host", "\x7b role: 'row' \x7d"⟩ :=
      .entry (by decide) ⟨by decide, hhost⟩ fun h => absurd h (by decide)
    exact .defineMetadata (List.forall_mem_cons.2 ⟨hexposes,
      List.forall_mem_cons.2 ⟨himports, List.forall_mem_singleton.2 hentry⟩⟩)
  · exact .onInit (List.forall_mem_singleton.2 hstart)
  · exact .call heffect

/-- The component is plain, so that development accepts it as production does. -/
theorem compile_modes_card :
    cardFile.IsPlain ∧ Accepted cardFile production ∧ Accepted cardFile development := by
  have hcard : IsVerbatim "card" := by decide
  have hidentifier : Names.componentIdentifier? cardFile.fileName = some ("card" : Text) := by
    decide
  have hplain : cardFile.IsPlain := by
    refine ⟨fun identifier h => ?_, fun items hitems => ?_⟩
    · obtain rfl := Option.some.inj (hidentifier.symm.trans h)
      exact hcard
    · rw [← eq_ofContent_of_extract extract_cardFile] at hitems
      obtain rfl := Except.ok.inj (classify_cardSections.symm.trans hitems)
      exact isPlain_cardItems
  have htarget := targetOf_of_classify hidentifier hcard extract_cardFile
    (by decide +kernel) classify_cardSections
  have hproduction : Accepted cardFile production :=
    accepted_of_isPlain htarget (isPlain_of_targetOf hplain htarget) production
  exact ⟨hplain, hproduction, ((compile_modes cardFile).2.2.2 hplain).1 hproduction⟩

/-- A key that needs quotes is written without them, and only production accepts the output. -/
theorem outputSyntax_of_quoted_key :
    let input : SourceFile :=
      ⟨"card.ng", "<script lang=\x22ts\x22>defineMetadata(\x7b 'a-b': 1 \x7d);</script>"⟩
    ¬ (Accepted input production ↔ Accepted input development) ∧
      ∃ reason, compile input development = .error (.outputSyntax "card.ng" reason) := by
  intro input
  have hproduction : Accepted input production := by decide +kernel
  have hdevelopment : ¬ Accepted input development := by decide +kernel
  exact ⟨fun h => hdevelopment (h.1 hproduction),
    outputSyntax_of_accepted_production hproduction hdevelopment⟩

end NgFile
