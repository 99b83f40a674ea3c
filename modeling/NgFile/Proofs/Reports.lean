import NgFile.Diagnostic
import NgFile.Proofs.Failures
import NgFile.Syntax.Literal
import NgFile.Trace

/-!
# Reports

What is handed out beside the text of a compilation: the events of its trace, which follow the
items of the script, and the wire form of an error, which can be read back.
-/

namespace NgFile

/-! ## Traces -/

section Traces

variable {input : SourceFile} {t : Target} {e : CompileError}

theorem traceOf_of_extract {identifier : Text} {sections : Sections}
    (hname : Names.componentIdentifier? input.fileName = some identifier)
    (hsections : Sections.extract input = .ok sections) :
    traceOf input =
      .compiling input.fileName :: .scaffolding (EntityKind.ofTemplate sections.template) ::
        scriptTrace input.fileName identifier sections := by
  unfold traceOf
  simp only [hname, hsections]

theorem scriptTrace_of_items {file identifier : Text} {sections : Sections} {base : Target}
    {items : Option (List ScriptItem)}
    (hbase : scaffoldTarget file identifier sections = .ok base)
    (hitems : scriptItems? file sections.script = .ok items) :
    scriptTrace file identifier sections =
      (items.getD []).filterMap (TraceEvent.ofItem? file) := by
  unfold scriptTrace
  cases items <;> simp only [hbase, hitems] <;> rfl

theorem scriptTrace_of_scaffold_error {file identifier : Text} {sections : Sections}
    (hbase : scaffoldTarget file identifier sections = .error e) :
    scriptTrace file identifier sections = [] := by
  unfold scriptTrace
  simp only [hbase]

theorem scriptTrace_of_items_error {file identifier : Text} {sections : Sections}
    (hitems : scriptItems? file sections.script = .error e) :
    scriptTrace file identifier sections = [] := by
  unfold scriptTrace
  cases scaffoldTarget file identifier sections <;> simp only [hitems]

/-- A compilation that makes a target reports the items that it applies, in their order. -/
theorem traceOf_of_targetOf (h : targetOf input = .ok t) :
    ∃ (base : Target) (sections : Sections) (items : Option (List ScriptItem)),
      Sections.extract input = .ok sections ∧ t = base.withScript items ∧
        traceOf input =
          .compiling input.fileName :: .scaffolding (EntityKind.ofTemplate sections.template) ::
            (items.getD []).filterMap (TraceEvent.ofItem? input.fileName) := by
  obtain ⟨identifier, sections, base, items, hname, hsections, hbase, hitems, rfl⟩ :=
    exists_of_targetOf_ok h
  refine ⟨base, sections, items, hsections, rfl, ?_⟩
  rw [traceOf_of_extract hname hsections, scriptTrace_of_items hbase hitems]

/-- One that makes none reports no items, and a scaffold only if it has sections. -/
theorem traceOf_of_targetOf_error (h : targetOf input = .error e) :
    traceOf input = [.compiling input.fileName] ∨
      ∃ sections, Sections.extract input = .ok sections ∧ traceOf input =
        [.compiling input.fileName, .scaffolding (EntityKind.ofTemplate sections.template)] := by
  cases targetOf_eq_error_iff.1 h with
  | name hname => exact .inl (by simp [traceOf, hname])
  | sections hname hscript htemplate =>
      have hsections := extract_eq_error_iff.2 ⟨hscript, htemplate, rfl⟩
      exact .inl (by simp [traceOf, hname, hsections])
  | scaffold hname hsections h =>
      exact .inr ⟨_, hsections, 
        by rw [traceOf_of_extract hname hsections, scriptTrace_of_scaffold_error h]⟩
  | script hname hsections hbase h =>
      exact .inr ⟨_, hsections,
        by rw [traceOf_of_extract hname hsections, scriptTrace_of_items_error h]⟩

theorem message?_isSome_of_ofItem? {file : Text} {item : ScriptItem} {event : TraceEvent}
    (h : TraceEvent.ofItem? file item = some event) : event.message?.isSome := by
  cases item with
  | call => cases h
  | importDecl | variableDecl | functionDecl | defineMetadata | onInit | other => cases h; rfl

/-- Only the first event of a trace has no message. -/
theorem message?_isSome_of_mem_tail {event : TraceEvent} (h : event ∈ (traceOf input).tail) :
    event.message?.isSome := by
  cases htarget : targetOf input with
  | ok t =>
      obtain ⟨_, _, items, -, -, htrace⟩ := traceOf_of_targetOf htarget
      rw [htrace, List.tail_cons, List.mem_cons] at h
      rcases h with rfl | h
      · rfl
      · obtain ⟨item, -, hitem⟩ := List.mem_filterMap.1 h
        exact message?_isSome_of_ofItem? hitem
  | error e =>
      rcases traceOf_of_targetOf_error htarget with htrace | ⟨_, -, htrace⟩
      · rw [htrace] at h
        exact absurd h List.not_mem_nil
      · rw [htrace, List.tail_cons, List.mem_singleton] at h
        subst h
        rfl

end Traces

/-! ## JSON strings -/

namespace Diagnostic

def escapeLetters : List (Char × Char) :=
  [('\x22', '\x22'), ('\\', '\\'), ('/', '/'), ('b', '\x08'), ('f', '\x0c'), ('n', '\n'),
    ('r', '\r'), ('t', '\t')]

/-- A piece of a JSON string and the character that it denotes. -/
inductive Denotes : Text → Char → Prop
  | plain {c : Char} (hquote : c ≠ '\x22') (hbackslash : c ≠ '\\') (hcontrol : 32 ≤ c.toNat) :
      Denotes [c] c
  | letter {c d : Char} (h : (c, d) ∈ escapeLetters) : Denotes ['\\', c] d
  | point {digits : Text} {n : Nat} (hlength : digits.length = 4)
      (hvalue : Syntax.Literal.hexValue? digits = some n) :
      Denotes ('\\' :: 'u' :: digits) (Char.ofNat n)

variable {p q s t : Text} {c d : Char}

def controlDigits (n : Nat) : Text :=
  List.replicate (4 - (Text.hexOfNat n).length) '0' ++ Text.hexOfNat n

theorem controlDigits_spec :
    ∀ n < 32, (controlDigits n).length = 4 ∧
      Syntax.Literal.hexValue? (controlDigits n) = some n := by
  decide +kernel

theorem denotes_escapedChar (c : Char) : Denotes (escapedChar c) c := by
  have hchar {d : Char} (hd : c.toNat = d.toNat) : c = d := Char.toNat_inj.1 hd
  unfold escapedChar
  split_ifs with hself hn hr ht hb hf hcontrol
  · rcases (by simpa using hself : c = '\x22' ∨ c = '\\') with rfl | rfl <;>
      exact .letter (by decide)
  · rw [show c = '\n' by simpa using hn]
    exact .letter (by decide)
  · rw [show c = '\r' by simpa using hr]
    exact .letter (by decide)
  · rw [show c = '\t' by simpa using ht]
    exact .letter (by decide)
  · rw [hchar (d := '\x08') (by simpa using hb)]
    exact .letter (by decide)
  · rw [hchar (d := '\x0c') (by simpa using hf)]
    exact .letter (by decide)
  · have hdigits := controlDigits_spec c.toNat hcontrol
    have hpoint := Denotes.point hdigits.1 hdigits.2
    rwa [Char.ofNat_toNat] at hpoint
  · have hself : c ≠ '\x22' ∧ c ≠ '\\' := by simpa using hself
    exact .plain hself.1 hself.2 (Nat.not_lt.1 hcontrol)

theorem cons_of_denotes (h : Denotes p c) : ∃ d rest, p = d :: rest ∧ d ≠ '\x22' := by
  cases h with
  | plain hquote => exact ⟨_, _, rfl, hquote⟩
  | letter | point => exact ⟨_, _, rfl, by decide⟩

theorem escapeLetters_unique :
    ∀ a ∈ escapeLetters, ∀ b ∈ escapeLetters, a.1 = b.1 → a.2 = b.2 := by
  decide

theorem escapeLetters_ne_u : ∀ a ∈ escapeLetters, a.1 ≠ 'u' := by
  decide

/-- Of two readings of one text the first pieces are the same. -/
theorem Denotes.append_inj (hp : Denotes p c) (hq : Denotes q d) (h : p ++ s = q ++ t) :
    c = d ∧ s = t := by
  -- The backslash tells a plain piece from an escape, and the letter `u` the two escapes.
  cases hp with
  | plain _ hbackslash =>
      cases hq with
      | plain => exact List.cons.inj h
      | letter | point => exact absurd (List.cons.inj h).1 hbackslash
  | letter hc =>
      cases hq with
      | plain _ hbackslash => exact absurd (List.cons.inj h).1.symm hbackslash
      | letter hd =>
          obtain ⟨rfl, hrest⟩ := List.cons.inj (List.cons.inj h).2
          exact ⟨escapeLetters_unique _ hc _ hd rfl, hrest⟩
      | point => exact absurd (List.cons.inj (List.cons.inj h).2).1 (escapeLetters_ne_u _ hc)
  | point hlength hvalue =>
      cases hq with
      | plain _ hbackslash => exact absurd (List.cons.inj h).1.symm hbackslash
      | letter hd =>
          exact absurd (List.cons.inj (List.cons.inj h).2).1.symm (escapeLetters_ne_u _ hd)
      | point hlength' hvalue' =>
          obtain ⟨rfl, hrest⟩ := List.append_inj (List.cons.inj (List.cons.inj h).2).2
            (hlength.trans hlength'.symm)
          exact ⟨congrArg Char.ofNat (Option.some.inj (hvalue.symm.trans hvalue')), hrest⟩

theorem flatMap_escapedChar_inj {a b : Text}
    (h : s.flatMap escapedChar ++ '\x22' :: a = t.flatMap escapedChar ++ '\x22' :: b) :
    s = t ∧ a = b := by
  induction s generalizing t with
  | nil =>
      cases t with
      | nil => exact ⟨rfl, (List.cons.inj h).2⟩
      | cons d t =>
          obtain ⟨e, rest, he, hne⟩ := cons_of_denotes (denotes_escapedChar d)
          rw [List.flatMap_cons, he] at h
          exact absurd (List.cons.inj h).1.symm hne
  | cons c s ih =>
      cases t with
      | nil =>
          obtain ⟨e, rest, he, hne⟩ := cons_of_denotes (denotes_escapedChar c)
          rw [List.flatMap_cons, he] at h
          exact absurd (List.cons.inj h).1 hne
      | cons d t =>
          rw [List.flatMap_cons, List.flatMap_cons, List.append_assoc, List.append_assoc] at h
          obtain ⟨rfl, hmore⟩ := (denotes_escapedChar c).append_inj (denotes_escapedChar d) h
          obtain ⟨rfl, hrest⟩ := ih hmore
          exact ⟨rfl, hrest⟩

/-- A string ends at its closing quote, whatever is behind it. -/
theorem jsonString_append_inj {a b : Text} (h : jsonString s ++ a = jsonString t ++ b) :
    s = t ∧ a = b := by
  have hquoted (u more : Text) :
      jsonString u ++ more = '\x22' :: (u.flatMap escapedChar ++ '\x22' :: more) := by
    simp [jsonString]
  rw [hquoted, hquoted] at h
  exact flatMap_escapedChar_inj (List.cons.inj h).2

/-- The wire form of a diagnostic holds all of it. -/
theorem wire_injective : Function.Injective wire := by
  rintro ⟨code, message, file⟩ ⟨code', message', file'⟩ h
  unfold wire at h
  simp only [List.append_assoc] at h
  obtain ⟨rfl, hmessage⟩ := jsonString_append_inj (List.append_cancel_left h)
  obtain ⟨rfl, hfile⟩ := jsonString_append_inj (List.append_cancel_left hmessage)
  obtain ⟨rfl, -⟩ := jsonString_append_inj (List.append_cancel_left hfile)
  rfl

end Diagnostic

/-! ## Batches -/

/-- Every file of a batch has the result that it has on its own. -/
theorem getElem?_compileAll (sources : List SourceFile) (options : CompileOptions) (i : Nat) :
    (compileAll sources options)[i]? = sources[i]?.map fun source => compile source options :=
  List.getElem?_map

end NgFile
