import Mathlib.Data.List.Basic
import NgFile.Formatting

/-!
# The place of the decorator

Formatting prints a target in two texts and puts the decorator in front of the first line
that exports the class.  A text may hold the words of that line elsewhere, in a module path
or in a string; only at the start of a line do they count.  So a search from the left
through places that do not overlap finds the same line.
-/

namespace NgFile

namespace Formatting

/-! ## Lines that begin with a text -/

/-- What can be in front of a line: nothing, or a text with a line feed at its end. -/
def EndsLine (before : Text) : Prop :=
  before = [] ∨ before.getLast? = some '\n'

instance (before : Text) : Decidable (EndsLine before) :=
  inferInstanceAs (Decidable (_ ∨ _))

structure LineBegins (lead text before after : Text) : Prop where
  text_eq : text = before ++ after
  endsLine : EndsLine before
  lead_prefix : lead <+: after

structure FirstLineBegins (lead text before after : Text) : Prop
    extends LineBegins lead text before after where
  first : ∀ {earlier rest}, LineBegins lead text earlier rest → before.length ≤ earlier.length

theorem endsLine_concat {before : Text} {c : Char} : EndsLine (before ++ [c]) ↔ c = '\n' := by
  simp [EndsLine]

section Search

variable {lead passed before after : Text} {c : Char} {rest : Text}

theorem splitAtLine?_here (hline : EndsLine passed) (hlead : lead <+: c :: rest) :
    splitAtLine? lead (decide (EndsLine passed)) (c :: rest) = some ([], c :: rest) := by
  rw [splitAtLine?, decide_eq_true hline, Text.beginsWith_iff.2 hlead]
  rfl

theorem splitAtLine?_later (h : ¬ (EndsLine passed ∧ lead <+: c :: rest)) :
    splitAtLine? lead (decide (EndsLine passed)) (c :: rest) =
      (splitAtLine? lead (decide (EndsLine (passed ++ [c]))) rest).map
        fun (before, after) => (c :: before, after) := by
  have hflag : (c == '\n') = decide (EndsLine (passed ++ [c])) := by
    rw [Bool.eq_iff_iff, beq_iff_eq, decide_eq_true_iff, endsLine_concat]
  rw [splitAtLine?, if_neg, hflag]
  rwa [Bool.and_eq_true, decide_eq_true_iff, Text.beginsWith_iff]

/-- The search with the text that it has passed: it stops at the first line that begins with
`lead`, wherever the rest of the text may be cut. -/
theorem splitAtLine?_spec (hne : lead ≠ []) (passed text : Text) :
    (splitAtLine? lead (decide (EndsLine passed)) text = none ∧
      ∀ before after, text = before ++ after → EndsLine (passed ++ before) →
        ¬ lead <+: after) ∨
    ∃ before after,
      splitAtLine? lead (decide (EndsLine passed)) text = some (before, after) ∧
      text = before ++ after ∧ EndsLine (passed ++ before) ∧ lead <+: after ∧
      ∀ earlier rest, text = earlier ++ rest → EndsLine (passed ++ earlier) → lead <+: rest →
        before.length ≤ earlier.length := by
  induction text generalizing passed with
  | nil =>
      left
      refine ⟨by simp [splitAtLine?, hne], ?_⟩
      intro before after htext _ hlead
      obtain ⟨rfl, rfl⟩ := List.append_eq_nil_iff.1 htext.symm
      exact hne (List.prefix_nil.1 hlead)
  | cons c text ih =>
      by_cases hhere : EndsLine passed ∧ lead <+: c :: text
      · right
        refine ⟨[], c :: text, splitAtLine?_here hhere.1 hhere.2, rfl, ?_, hhere.2, ?_⟩
        · rw [List.append_nil]
          exact hhere.1
        · intro earlier rest _ _ _
          exact Nat.zero_le _
      · rw [splitAtLine?_later hhere]
        -- a cut of the whole text is one in front of it, or one of the rest behind `c`
        have hcut : ∀ before after, c :: text = before ++ after → EndsLine (passed ++ before) →
            lead <+: after → ∃ more, before = c :: more ∧ text = more ++ after ∧
              EndsLine (passed ++ [c] ++ more) := by
          intro before after htext hline hlead
          rcases List.cons_eq_append_iff.1 htext with ⟨rfl, rfl⟩ | ⟨more, rfl, rfl⟩
          · rw [List.append_nil] at hline
            exact absurd ⟨hline, hlead⟩ hhere
          · exact ⟨more, rfl, rfl, by rwa [List.append_assoc]⟩
        rcases ih (passed ++ [c]) with
          ⟨hnone, hall⟩ | ⟨before, after, hsome, htext, hline, hlead, hfirst⟩
        · left
          refine ⟨by rw [hnone, Option.map_none], fun before after htext hline hlead => ?_⟩
          obtain ⟨more, -, hmore, hends⟩ := hcut before after htext hline hlead
          exact hall more after hmore hends hlead
        · right
          refine ⟨c :: before, after, by rw [hsome, Option.map_some], by rw [htext]; rfl, ?_, hlead,
            fun earlier rest htext' hline' hlead' => ?_⟩
          · rwa [List.append_assoc] at hline
          · obtain ⟨more, rfl, hmore, hends⟩ := hcut earlier rest htext' hline' hlead'
            exact Nat.succ_le_succ (hfirst more rest hmore hends hlead')

/-- The search fails exactly if no line begins with `lead`. -/
theorem splitAtLine?_eq_none_iff (hne : lead ≠ []) {text : Text} :
    splitAtLine? lead true text = none ↔ ∀ before after, ¬ LineBegins lead text before after := by
  rcases splitAtLine?_spec hne [] text with ⟨hnone, hall⟩ | ⟨before, after, hsome, h⟩
  · refine ⟨fun _ before after h => hall before after h.text_eq h.endsLine h.lead_prefix,
      fun _ => hnone⟩
  · refine ⟨fun hnone => ?_, fun hall => absurd ⟨h.1, h.2.1, h.2.2.1⟩ (hall before after)⟩
    cases hsome.symm.trans hnone

/-- What the search finds is the first line that begins with `lead`. -/
theorem firstLineBegins_of_splitAtLine? (hne : lead ≠ []) {text : Text}
    (h : splitAtLine? lead true text = some (before, after)) :
    FirstLineBegins lead text before after := by
  rcases splitAtLine?_spec hne [] text with
    ⟨hnone, -⟩ | ⟨before', after', hsome, htext, hline, hlead, hfirst⟩
  · cases hnone.symm.trans h
  · cases hsome.symm.trans h
    exact ⟨⟨htext, hline, hlead⟩, fun h => hfirst _ _ h.text_eq h.endsLine h.lead_prefix⟩

end Search

/-! ## The search through places that do not overlap -/

/--
The places of `lead` in a text from the left, none of which overlaps the one before it.  The
text stands at `place`, and its first `skip` characters belong to the last place found.
-/
def places (lead : Text) : Nat → Nat → Text → List Nat
  | _, _, [] => []
  | skip + 1, place, _ :: rest => places lead skip (place + 1) rest
  | 0, place, c :: rest =>
      if Text.beginsWith lead (c :: rest) then
        place :: places lead (lead.length - 1) (place + 1) rest
      else places lead 0 (place + 1) rest

def linePlace? (lead text : Text) : Option Nat :=
  (places lead 0 0 text).find? fun place => EndsLine (text.take place)

/--
No line begins at a place that the search passes over: what it passes over is the rest of a
place found, and that holds no line feed.
-/
theorem find?_places {lead : Text} (hne : lead ≠ []) (hlead : '\n' ∉ lead) (text : Text) :
    ∀ (passed : Text) (skip : Nat),
      (skip ≠ 0 → ¬ EndsLine passed ∧ '\n' ∉ text.take (skip - 1)) →
      ((places lead skip passed.length text).find? fun place =>
          EndsLine ((passed ++ text).take place)) =
        (splitAtLine? lead (decide (EndsLine passed)) text).map
          fun (before, _) => passed.length + before.length := by
  induction text with
  | nil =>
      intro passed skip _
      simp [places, splitAtLine?, hne]
  | cons c rest ih =>
      intro passed skip hskip
      have hpassed : passed ++ c :: rest = passed ++ [c] ++ rest := List.append_cons passed c rest
      have hlength : passed.length + 1 = (passed ++ [c]).length := by simp
      -- the rest of the text, once nothing is found in front of it
      have hrest : ∀ more, (more ≠ 0 → ¬ EndsLine (passed ++ [c]) ∧ '\n' ∉ rest.take (more - 1)) →
          ¬ (EndsLine passed ∧ lead <+: c :: rest) →
          ((places lead more (passed.length + 1) rest).find? fun place =>
              EndsLine ((passed ++ c :: rest).take place)) =
            (splitAtLine? lead (decide (EndsLine passed)) (c :: rest)).map
              fun (before, _) => passed.length + before.length := by
        intro more hmore hlater
        rw [splitAtLine?_later hlater, hpassed, hlength, ih _ _ hmore, Option.map_map]
        congr 1
        funext ⟨before, after⟩
        simp only [Function.comp_apply, List.length_append, List.length_cons, List.length_nil]
        omega
      cases skip with
      | succ skip =>
          obtain ⟨hends, hnone⟩ := hskip (Nat.succ_ne_zero skip)
          refine hrest skip (fun hmore => ?_) fun h => hends h.1
          obtain ⟨more, rfl⟩ := Nat.exists_eq_succ_of_ne_zero hmore
          rw [Nat.succ_eq_add_one, Nat.add_sub_cancel, List.take_succ_cons, List.mem_cons,
            not_or] at hnone
          exact ⟨fun h => hnone.1 (endsLine_concat.1 h).symm, hnone.2⟩
      | zero =>
          by_cases hbegins : lead <+: c :: rest
          · rw [places, if_pos (Text.beginsWith_iff.2 hbegins)]
            by_cases hends : EndsLine passed
            · rw [splitAtLine?_here hends hbegins, List.find?_cons_of_pos (by simpa using hends)]
              rfl
            · rw [List.find?_cons_of_neg (by simpa using hends)]
              refine hrest _ (fun _ => ?_) fun h => hends h.1
              obtain ⟨d, lead, rfl⟩ := List.exists_cons_of_ne_nil hne
              obtain ⟨rfl, hprefix⟩ := List.cons_prefix_cons.1 hbegins
              rw [List.mem_cons, not_or] at hlead
              refine ⟨fun h => hlead.1 (endsLine_concat.1 h).symm, fun hmem => hlead.2 ?_⟩
              have hshort : rest.take (lead.length - 1) <+: lead :=
                List.prefix_of_prefix_length_le (List.take_prefix _ _) hprefix
                  (by rw [List.length_take]; omega)
              exact hshort.subset hmem
          · rw [places, if_neg (mt Text.beginsWith_iff.1 hbegins)]
            exact hrest 0 (fun h => absurd rfl h) fun h => hbegins h.2

/-- Both searches find the same line. -/
theorem linePlace?_eq {lead : Text} (hne : lead ≠ []) (hlead : '\n' ∉ lead) (text : Text) :
    linePlace? lead text = (splitAtLine? lead true text).map fun (before, _) => before.length := by
  have hfind := find?_places hne hlead text [] 0 fun h => absurd rfl h
  simp only [List.nil_append, List.length_nil, Nat.zero_add] at hfind
  exact hfind

end Formatting

/-! ## Lines of declarations -/

namespace Formatting

section Lines

variable {lead line rest : Text} {lines : List Text}

/-- A search within a line goes on in the next one. -/
theorem splitAtLine?_inside (hline : '\n' ∉ line) :
    splitAtLine? lead false (line ++ '\n' :: rest) =
      (splitAtLine? lead true rest).map
        fun (before, after) => (line ++ '\n' :: before, after) := by
  induction line with
  | nil => rfl
  | cons c line ih =>
      rw [List.mem_cons, not_or] at hline
      have hc : (c == '\n') = false := beq_eq_false_iff_ne.2 (Ne.symm hline.1)
      rw [List.cons_append, splitAtLine?, hc, ih hline.2, Option.map_map]
      rfl

theorem splitAtLine?_line (hline : '\n' ∉ line) (hlead : ¬ lead <+: line ++ '\n' :: rest) :
    splitAtLine? lead true (line ++ '\n' :: rest) =
      (splitAtLine? lead true rest).map
        fun (before, after) => (line ++ '\n' :: before, after) := by
  have hmiss : ¬ (true && Text.beginsWith lead (line ++ '\n' :: rest)) = true := by
    rwa [Bool.true_and, Text.beginsWith_iff]
  cases line with
  | nil => exact if_neg hmiss
  | cons c line =>
      rw [List.mem_cons, not_or] at hline
      have hc : (c == '\n') = false := beq_eq_false_iff_ne.2 (Ne.symm hline.1)
      rw [List.cons_append] at hmiss ⊢
      rw [splitAtLine?, if_neg hmiss, hc, splitAtLine?_inside hline.2, Option.map_map]
      rfl

/-- Lines that begin with the word of an import are not the line that exports the class,
whatever else they hold. -/
theorem splitAtLine?_imports
    (hlines : ∀ line ∈ lines, "import".toList <+: line ∧ '\n' ∉ line) :
    splitAtLine? Render.classLead true
        (lines.flatMap (· ++ ['\n']) ++ (Render.classLead ++ rest)) =
      some (lines.flatMap (· ++ ['\n']), Render.classLead ++ rest) := by
  induction lines with
  | nil => rfl
  | cons line lines ih =>
      obtain ⟨⟨hword, hfeed⟩, hlines⟩ := List.forall_mem_cons.1 hlines
      have hmiss : ¬ Render.classLead <+: line ++ '\n' ::
          (lines.flatMap (· ++ ['\n']) ++ (Render.classLead ++ rest)) := by
        obtain ⟨more, rfl⟩ := hword
        exact fun h => absurd (List.cons_prefix_cons.1 h).1 (by decide)
      have hstep := splitAtLine?_line hfeed hmiss
      rw [ih hlines] at hstep
      simpa using hstep

end Lines

/-! ## The end of a printed text -/

/-- `kept` is a text without the white space at its end and one semicolon before that. -/
def LosesEnd (text kept : Text) : Prop :=
  ∃ blanks, (∀ c ∈ blanks, Text.isBlank c = true) ∧
    (text = kept ++ ';' :: blanks ∨
      text = kept ++ blanks ∧ ∀ c ∈ kept.getLast?, Text.isBlank c = false ∧ c ≠ ';')

theorem finishesWith_singleton_iff {c : Char} {t : Text} :
    Text.finishesWith [c] t = true ↔ t.getLast? = some c := by
  rw [Text.finishesWith_iff]
  constructor
  · rintro ⟨before, rfl⟩
    exact List.getLast?_concat
  · intro h
    obtain ⟨before, rfl⟩ := List.getLast?_eq_some_iff.1 h
    exact List.suffix_append _ _

theorem withoutEnd_of_semicolon {text kept : Text} (h : Text.trimEnd text = kept ++ [';']) :
    withoutEnd text = kept := by
  have hends : Text.finishesWith [';'] (kept ++ [';']) = true :=
    finishesWith_singleton_iff.2 List.getLast?_concat
  change (if Text.finishesWith [';'] (Text.trimEnd text) then (Text.trimEnd text).dropLast
    else _) = kept
  rw [h, if_pos hends, List.dropLast_concat]

theorem withoutEnd_of_plain {text kept : Text} (h : Text.trimEnd text = kept)
    (hlast : kept.getLast? ≠ some ';') : withoutEnd text = kept := by
  change (if Text.finishesWith [';'] (Text.trimEnd text) then _ else Text.trimEnd text) = kept
  rw [h, if_neg (mt finishesWith_singleton_iff.1 hlast)]

theorem withoutEnd_eq_iff {text kept : Text} : withoutEnd text = kept ↔ LosesEnd text kept := by
  constructor
  · rintro rfl
    obtain ⟨blanks, htext, hblanks⟩ := Text.exists_eq_trimEndBy_append Text.isBlank text
    refine ⟨blanks, hblanks, ?_⟩
    by_cases hsemicolon : (Text.trimEnd text).getLast? = some ';'
    · obtain ⟨front, hfront⟩ := List.getLast?_eq_some_iff.1 hsemicolon
      rw [← Text.trimEnd, hfront] at htext
      left
      rw [withoutEnd_of_semicolon hfront, htext, List.append_assoc]
      rfl
    · rw [withoutEnd_of_plain rfl hsemicolon]
      refine Or.inr ⟨htext, fun c hc => ⟨Text.getLast?_trimEndBy _ _ c hc, ?_⟩⟩
      rintro rfl
      exact hsemicolon hc
  · rintro ⟨blanks, hblanks, rfl | ⟨rfl, hlast⟩⟩
    · apply withoutEnd_of_semicolon
      rw [Text.trimEnd, List.append_cons, Text.trimEndBy_append_of_all _ _ hblanks]
      exact Text.trimEndBy_concat_of_neg _ _ (by decide)
    · apply withoutEnd_of_plain
      · rw [Text.trimEnd, Text.trimEndBy_append_of_all _ _ hblanks]
        exact Text.trimEndBy_of_getLast? _ fun c hc => (hlast c hc).1
      · exact fun h => (hlast ';' h).2 rfl

theorem withFinalNewline_eq (t : Text) :
    withFinalNewline t = t ++ if t.getLast? = some '\n' then [] else ['\n'] := by
  by_cases h : t.getLast? = some '\n'
  · rw [if_pos h, List.append_nil]
    exact if_pos (finishesWith_singleton_iff.2 h)
  · rw [if_neg h]
    exact if_neg (mt finishesWith_singleton_iff.1 h)

theorem place?_of_splitAtLine? {body decorator before after kept : Text}
    (h : splitAtLine? Render.classLead true body = some (before, after))
    (hkept : LosesEnd decorator kept) :
    place? body decorator = some (withFinalNewline (before ++ '@' :: kept ++ '\n' :: after)) := by
  rw [place?, h, Option.map_some, withoutEnd_eq_iff.2 hkept]

end Formatting

namespace Target

variable {t : Target} {print : Text → Except CompileError Text} {body decorator : Text}

/-! ## Formatting with any printer -/

def bodyText (t : Target) : Text :=
  Render.importLines t ++ "\n" ++ Render.entity t.entity

def decoratorText (t : Target) : Text :=
  Render.decoratorCall t.entity ++ ";"

def formatWith (print : Text → Except CompileError Text) (t : Target) :
    Except CompileError Text := do
  let body ← print t.bodyText
  let decorator ← print t.decoratorText
  match Formatting.place? body decorator with
  | some text => return text
  | none => throw (.outputSyntax t.fileName Formatting.noClassExport)

/-- Formatting uses the printer of the standard layout. -/
theorem format_eq_formatWith (t : Target) :
    t.format = t.formatWith (Formatting.reprint t.fileName) := rfl

theorem formatWith_of_place? {text : Text} (hbody : print t.bodyText = .ok body)
    (hdecorator : print t.decoratorText = .ok decorator)
    (h : Formatting.place? body decorator = some text) : t.formatWith print = .ok text := by
  simp only [formatWith, hbody, hdecorator, bind, Except.bind, h]
  rfl

theorem formatWith_eq_error_iff (hbody : print t.bodyText = .ok body)
    (hdecorator : print t.decoratorText = .ok decorator) :
    t.formatWith print = .error (.outputSyntax t.fileName Formatting.noClassExport) ↔
      Formatting.splitAtLine? Render.classLead true body = none := by
  simp only [formatWith, hbody, hdecorator, bind, Except.bind, Formatting.place?]
  cases Formatting.splitAtLine? Render.classLead true body with
  | none => exact ⟨fun _ => rfl, fun _ => rfl⟩
  | some cut => exact ⟨fun h => (by cases h), fun h => (by cases h)⟩

open Formatting in
/--
Whatever the printer makes of a target, formatting fails exactly if no line exports the class;
else the decorator stands in front of the first such line, which the search through places
that do not overlap finds too.  One-line imports in front of the class are never that line.
-/
theorem formatWith_outcome (hbody : print t.bodyText = .ok body)
    (hdecorator : print t.decoratorText = .ok decorator) :
    t.format = t.formatWith (reprint t.fileName) ∧
    ∃ kept, (∀ d, LosesEnd decorator d ↔ d = kept) ∧
      (t.formatWith print = .error (.outputSyntax t.fileName noClassExport) ↔
        ∀ before after, ¬ LineBegins Render.classLead body before after) ∧
      (∀ before after, LineBegins Render.classLead body before after →
        ∃ before after, FirstLineBegins Render.classLead body before after ∧
          linePlace? Render.classLead body = some before.length ∧
          ∃ text, text = before ++ '@' :: kept ++ '\n' :: after ∧
            t.formatWith print =
              .ok (text ++ if text.getLast? = some '\n' then [] else ['\n'])) ∧
      ∀ (lines : List Text) (rest : Text),
        body = lines.flatMap (· ++ ['\n']) ++ (Render.classLead ++ rest) →
        (∀ line ∈ lines, "import".toList <+: line ∧ '\n' ∉ line) →
        ∃ text, text = lines.flatMap (· ++ ['\n']) ++ '@' :: kept ++
            '\n' :: (Render.classLead ++ rest) ∧
          t.formatWith print =
            .ok (text ++ if text.getLast? = some '\n' then [] else ['\n']) := by
  have hne : Render.classLead ≠ [] := by decide
  have hkept : LosesEnd decorator (withoutEnd decorator) := withoutEnd_eq_iff.1 rfl
  have hplaced : ∀ before after, splitAtLine? Render.classLead true body = some (before, after) →
      ∃ text, text = before ++ '@' :: withoutEnd decorator ++ '\n' :: after ∧
        t.formatWith print =
          .ok (text ++ if text.getLast? = some '\n' then [] else ['\n']) := by
    intro before after hsplit
    refine ⟨_, rfl, ?_⟩
    rw [← withFinalNewline_eq]
    exact formatWith_of_place? hbody hdecorator (place?_of_splitAtLine? hsplit hkept)
  refine ⟨rfl, withoutEnd decorator, fun d => ?_, ?_, ?_, ?_⟩
  · rw [← withoutEnd_eq_iff, eq_comm]
  · rw [formatWith_eq_error_iff hbody hdecorator, splitAtLine?_eq_none_iff hne]
  · intro before after hline
    cases hsplit : splitAtLine? Render.classLead true body with
    | none => exact absurd hline ((splitAtLine?_eq_none_iff hne).1 hsplit before after)
    | some cut =>
        obtain ⟨before, after⟩ := cut
        refine ⟨before, after, firstLineBegins_of_splitAtLine? hne hsplit, ?_,
          hplaced before after hsplit⟩
        rw [linePlace?_eq hne (by decide), hsplit, Option.map_some]
  · rintro lines rest rfl hlines
    exact hplaced _ _ (splitAtLine?_imports hlines)

/-- A module path holds the words of the line that exports the class; the class is found. -/
theorem formatWith_outcome_import :
    let line : Text := "import 'export default class ';"
    let t : Target :=
      { fileName := "card.ng"
        kind := .directive
        importTexts := [line]
        entity :=
          { name := "AnalogNgEntity"
            decorator := "Directive"
            metadata := ⟨[⟨"standalone", "true"⟩], by decide⟩
            properties := []
            constructorBody := []
            methods := [] } }
    let rest : Text := "AnalogNgEntity \x7b\n\tconstructor() \x7b\x7d\n\x7d\n"
    Formatting.reprint "card.ng" t.bodyText = .ok (line ++ '\n' :: (Render.classLead ++ rest)) ∧
    Formatting.reprint "card.ng" t.decoratorText =
      .ok "Directive(\x7b standalone: true \x7d);\n" ∧
    t.format = .ok (line ++ "\n@Directive(\x7b standalone: true \x7d)\n" ++
      (Render.classLead ++ rest)) := by
  intro line t rest
  have hbody : Formatting.reprint "card.ng" t.bodyText =
      .ok (line ++ '\n' :: (Render.classLead ++ rest)) := by decide +kernel
  have hdecorator : Formatting.reprint "card.ng" t.decoratorText =
      .ok "Directive(\x7b standalone: true \x7d);\n" := by decide +kernel
  obtain ⟨hformat, kept, hkept, -, -, himports⟩ := formatWith_outcome hbody hdecorator
  have hcall : "Directive(\x7b standalone: true \x7d)".toList = kept :=
    (hkept _).1 ⟨['\n'], List.forall_mem_singleton.2 rfl, Or.inl (by decide)⟩
  obtain ⟨text, htext, hresult⟩ := himports [line] rest (by simp) (by decide)
  refine ⟨hbody, hdecorator, ?_⟩
  rw [hformat, hresult, htext, ← hcall]
  decide +kernel

end Target

end NgFile
