import NgFile.Proofs.ClassLine

/-!
# Plain targets

A target whose texts are plain phrases is written as a plain script, wherever promotion has
moved the texts to.  So formatting reads again what is written: the imports with the class,
whose line it finds, and the decorator call.
-/

namespace NgFile

open Syntax Syntax.Parser Lexeme

/-! ## Spelled texts -/

namespace Syntax.Parser

section Spelling

variable {P Q R : List Token → Prop} {s t : Text}

theorem spelled_nil : Spelled (· = []) [] :=
  ⟨[], trivial, rfl, fun _ _ => rfl⟩

theorem Spelled.mono (h : Spelled P t) (hPQ : ∀ ts, P ts → Q ts) : Spelled Q t := by
  obtain ⟨ls, hls, htext, hP⟩ := h
  exact ⟨ls, hls, htext, fun gap pos => hPQ _ (hP gap pos)⟩

/-- Behind the end of a line lexemes begin on a line of their own. -/
theorem gap_head_tokensOf (ls : List Lexeme) (pos : Nat) :
    ∀ token ∈ (tokensOf .newline pos ls).head?, token.gap = .newline := by
  induction ls generalizing pos with
  | nil => simp [tokensOf]
  | cons l rest ih =>
      cases hkind : l.kind? with
      | some kind => simp [tokensOf, hkind]
      | none =>
          have hgap : gapAfter .newline l = .newline := by
            cases l <;> rfl
          simpa only [tokensOf, hkind, hgap] using ih _

/-- Lexemes in front of a spelled text. -/
theorem Spelled.behind (ht : Spelled Q t) (front : List Lexeme)
    (hfront : ∀ ls, Separated ls → Separated (front ++ ls))
    (hR : ∀ gap pos us, Q us → R (tokensOf gap pos front ++ us)) :
    Spelled R (texts front ++ t) := by
  obtain ⟨ls, hls, rfl, hQ⟩ := ht
  refine ⟨front ++ ls, hfront ls hls, texts_append _ _, fun gap pos => ?_⟩
  rw [tokensOf_append]
  exact hR _ _ _ (hQ _ _)

/-- Two spelled texts, with lexemes in front of the first and between the two. -/
theorem Spelled.join (hs : Spelled P s) (ht : Spelled Q t) (front : List Lexeme) (l : Lexeme)
    (middle : List Lexeme) (hfront : ∀ ls, Separated ls → Separated (front ++ ls))
    (hmiddle : ∀ ls, Separated ls → Separated (l :: middle ++ ls)) (hends : l.endsRun = true)
    (hR : ∀ gap pos gap' pos' ts us, P ts → Q us →
      (gapOf gap' (l :: middle) = .newline → ∀ token ∈ us.head?, token.gap = .newline) →
      R (tokensOf gap pos front ++ (ts ++ (tokensOf gap' pos' (l :: middle) ++ us)))) :
    Spelled R (texts front ++ (s ++ (texts (l :: middle) ++ t))) := by
  obtain ⟨ls, hls, rfl, hP⟩ := hs
  obtain ⟨more, hmore, rfl, hQ⟩ := ht
  have hrest : Separated (ls ++ (l :: middle ++ more)) := by
    refine separated_append hls (hmiddle more hmore) fun next hnext => ?_
    cases hnext
    exact hends
  refine ⟨front ++ (ls ++ (l :: middle ++ more)), hfront _ hrest, ?_, fun gap pos => ?_⟩
  · rw [texts_append front, texts_append ls, texts_append (l :: middle)]
  · rw [tokensOf_append _ _ front, tokensOf_append _ _ ls, tokensOf_append _ _ (l :: middle)]
    refine hR _ _ _ _ _ _ (hP _ _) (hQ _ _) fun hline => ?_
    rw [hline]
    exact gap_head_tokensOf _ _

/-- Spelled texts with a separator between them. -/
theorem spelled_joinWith (l : Lexeme) (rest : List Lexeme)
    (hsep : ∀ ls, Separated ls → Separated (l :: rest ++ ls)) (hends : l.endsRun = true)
    (hlast : ∀ ts, P ts → R ts)
    (hmore : ∀ gap pos ts us, P ts → R us → R (ts ++ (tokensOf gap pos (l :: rest) ++ us)))
    {pieces : List Text} (hne : pieces ≠ []) (h : ∀ piece ∈ pieces, Spelled P piece) :
    Spelled R (Text.joinWith (texts (l :: rest)) pieces) := by
  induction pieces with
  | nil => exact absurd rfl hne
  | cons piece pieces ih =>
      obtain ⟨hpiece, hpieces⟩ := List.forall_mem_cons.1 h
      cases pieces with
      | nil => exact hpiece.mono hlast
      | cons next pieces =>
          have htext : Text.joinWith (texts (l :: rest)) (piece :: next :: pieces) =
              piece ++ (texts (l :: rest) ++ Text.joinWith (texts (l :: rest)) (next :: pieces)) :=
            List.append_assoc _ _ _
          rw [htext]
          exact hpiece.join (ih (List.cons_ne_nil _ _) hpieces) [] l rest (fun _ hls => hls) hsep
            hends (fun _ _ _ _ us vs hus hvs _ => hmore _ _ us vs hus hvs)

theorem length_tokensOf_le {ls : List Lexeme} (hls : Separated ls) (gap : Gap) (pos : Nat) :
    (tokensOf gap pos ls).length ≤ (texts ls).length := by
  -- A token has a character at least, and what only separates has no token.
  induction ls generalizing gap pos with
  | nil => exact Nat.le_refl _
  | cons l rest ih =>
      obtain ⟨hl, -, hrest⟩ := hls
      rw [length_texts_cons]
      cases hkind : l.kind? with
      | some kind =>
          obtain ⟨c, text, htext, -⟩ := exists_beginsToken hl hkind
          have hcount := ih hrest .nothing (pos + l.text.length)
          simp only [tokensOf, hkind, List.length_cons]
          simp only [htext, List.length_cons] at hcount ⊢
          omega
      | none =>
          simp only [tokensOf, hkind]
          exact Nat.le_add_left_of_le (ih hrest _ _)

/-- The tokens of a spelled text, and the one that ends it. -/
theorem Spelled.exists_tokens (h : Spelled P t) :
    ∃ ts last, tokens t = ts ++ [last] ∧ P ts ∧ last.kind = .stop ∧ ts.length ≤ t.length := by
  obtain ⟨ls, hls, rfl, hP⟩ := h
  exact ⟨_, _, tokens_texts hls, hP _ _, rfl, length_tokensOf_le hls _ _⟩

end Spelling

def indentation : Nat → List Lexeme
  | 0 => []
  | depth + 1 => .space :: .space :: indentation depth

theorem separated_indentation (depth : Nat) {ls : List Lexeme} (hls : Separated ls) :
    Separated (indentation depth ++ ls) := by
  induction depth with
  | zero => exact hls
  | succ depth ih => exact ⟨trivial, rfl, trivial, rfl, ih⟩

theorem texts_indentation (depth : Nat) :
    texts (indentation depth) = Text.replicated depth Render.indent := by
  induction depth with
  | zero => rfl
  | succ depth ih =>
      rw [indentation, texts_cons, texts_cons, ih]
      rfl

theorem tokensOf_indentation (depth : Nat) (gap : Gap) (pos : Nat) :
    tokensOf gap pos (indentation depth) = [] := by
  induction depth generalizing gap pos with
  | zero => rfl
  | succ depth ih => exact ih _ _

end Syntax.Parser

/-! ## Plain texts -/

/-- Whether a text is a name and no word of the language. -/
def IsName (text : Text) : Prop :=
  (Lexeme.name text).WellFormed

instance (text : Text) : Decidable (IsName text) :=
  inferInstanceAs (Decidable (Lexeme.name text).WellFormed)

/-- Whether a text can be a key as it is, without quotes. -/
def IsBareKey (text : Text) : Prop :=
  isWordText text = true ∨ isDecimal text = true

instance (text : Text) : Decidable (IsBareKey text) :=
  inferInstanceAs (Decidable (_ ∨ _))

/-- Whether a text is a plain statement, with its semicolon or without. -/
def IsPlainStatement (text : Text) : Prop :=
  ∃ closed, Spelled (Phrase (.statement closed)) text

/-- An entry whose key needs no quotes and whose value is a plain expression. -/
structure MetadataEntry.IsPlain (e : MetadataEntry) : Prop where
  key : IsBareKey e.key
  value : Spelled (Phrase .assignment) e.value

structure ClassProperty.IsPlain (p : ClassProperty) : Prop where
  scope : p.scope = .isProtected
  name : IsName p.name
  value : ∀ text ∈ p.initializer, Spelled (Phrase .assignment) text

structure ClassMethod.IsPlain (m : ClassMethod) : Prop where
  name : IsName m.name
  params : m.params = []
  statements : ∀ text ∈ m.statements, IsPlainStatement text

structure TargetClass.IsPlain (c : TargetClass) : Prop where
  name : IsName c.name
  decorator : IsName c.decorator
  metadata : ∀ e ∈ c.metadata.entries, e.IsPlain
  properties : ∀ p ∈ c.properties, p.IsPlain
  constructorBody : ∀ text ∈ c.constructorBody, IsPlainStatement text
  methods : ∀ m ∈ c.methods, m.IsPlain

/-- A target whose texts are plain phrases. -/
structure Target.IsPlain (t : Target) : Prop where
  imports : ∀ text ∈ t.importTexts, Spelled Import (ScriptItem.terminated text)
  entity : t.entity.IsPlain

theorem IsName.ne_constructor {text : Text} (h : IsName text) : text ≠ "constructor" := by
  rintro rfl
  exact absurd h (by decide)

theorem IsBareKey.exists_lexeme {text : Text} (h : IsBareKey text) :
    ∃ (l : Lexeme) (kind : TokenKind), l.WellFormed ∧ l.isRun = true ∧ l.text = text ∧
      l.kind? = some kind ∧ IsKey kind := by
  rcases h with hword | hdecimal
  · cases hkeyword : Keyword.ofText? text with
    | none => exact ⟨.name text, _, ⟨hword, hkeyword⟩, rfl, rfl, rfl, .word (.name text)⟩
    | some k =>
        have htext := List.find?_some hkeyword
        exact ⟨.keyword k, _, trivial, rfl, beq_iff_eq.1 htext, rfl, .word (.keyword k)⟩
  · exact ⟨.numeral text, _, hdecimal, rfl, rfl, rfl, .number _⟩

namespace Render

variable {rest : Text} {ts : List Text}

/-! ## Members -/

/-- Statements, each on a line of its own. -/
theorem spelled_lines (depth : Nat) (h : ∀ text ∈ ts, IsPlainStatement text) :
    Spelled (Phrase .statements) (lines depth ts) := by
  induction ts with
  | nil => exact spelled_nil.mono fun us hus => hus ▸ .noStatements
  | cons text more ih =>
      obtain ⟨⟨closed, htext⟩, hmore⟩ := List.forall_mem_cons.1 h
      have hlines : lines depth (text :: more) =
          texts (indentation depth) ++ (text ++ (texts [.newline] ++ lines depth more)) := by
        rw [texts_indentation]
        simp only [lines, List.map_cons, List.flatten_cons, List.append_assoc]
        rfl
      rw [hlines]
      refine htext.join (ih hmore) _ .newline [] (fun _ => separated_indentation depth)
        (fun _ hls => ⟨trivial, rfl, hls⟩) rfl ?_
      intro gap pos gap' pos' us vs hus hvs hline
      rw [tokensOf_indentation, List.nil_append]
      cases closed with
      | true => exact .closedStatement hus hvs
      | false => exact .openStatement hus hvs (hline rfl)

theorem spelled_property {p : ClassProperty} (hp : p.IsPlain) (hrest : Spelled Members rest) :
    Spelled Members (property p ++ rest) := by
  obtain ⟨scope, name, initializer⟩ := p
  obtain rfl : scope = .isProtected := hp.scope
  have hname : (Lexeme.name name).WellFormed := hp.name
  have hne : name ≠ "constructor" := hp.name.ne_constructor
  cases initializer with
  | none =>
      have htext : property ⟨.isProtected, name, none⟩ ++ rest =
          texts [.space, .space, .keyword .kwProtected, .space, .name name, .mark .semicolon,
            .newline] ++ rest := by
        simp only [property, texts_cons, List.append_assoc]
        rfl
      rw [htext]
      exact hrest.behind _
        (fun _ hls => ⟨trivial, rfl, trivial, rfl, trivial, rfl, trivial, rfl, hname, rfl, rfl,
          rfl, trivial, rfl, hls⟩)
        (fun gap pos us hus => .field hne (by simp [gapAfter]) hus)
  | some value =>
      have htext : property ⟨.isProtected, name, some value⟩ ++ rest =
          texts [.space, .space, .keyword .kwProtected, .space, .name name, .space,
            .operator .equal, .space] ++
              (value ++ (texts [.mark .semicolon, .newline] ++ rest)) := by
        simp only [property, texts_cons, List.append_assoc]
        rfl
      rw [htext]
      exact (hp.value value rfl).join hrest _ _ _
        (fun _ hls => ⟨trivial, rfl, trivial, rfl, trivial, rfl, trivial, rfl, hname, rfl, trivial,
          rfl, rfl, rfl, trivial, rfl, hls⟩)
        (fun _ hls => ⟨rfl, rfl, trivial, rfl, hls⟩) rfl
        (fun gap pos gap' pos' ts us hts hus _ => .value hne (by simp [gapAfter]) hts hus)

theorem spelled_properties {ps : List ClassProperty} (h : ∀ p ∈ ps, p.IsPlain)
    (hrest : Spelled Members rest) : Spelled Members (properties ps ++ rest) := by
  unfold properties
  split
  · exact hrest
  · rw [List.append_assoc]
    have hnewline : Spelled Members ("\n" ++ rest) :=
      hrest.behind [.newline] (fun _ hls => ⟨trivial, rfl, hls⟩) (fun _ _ _ hus => hus)
    generalize ("\n" ++ rest : Text) = behind at hnewline
    clear * - h hnewline
    induction ps with
    | nil => exact hnewline
    | cons p more ih =>
        obtain ⟨hp, hmore⟩ := List.forall_mem_cons.1 h
        rw [List.map_cons, List.flatten_cons, List.append_assoc]
        exact spelled_property hp (ih hmore)

theorem spelled_constructor {body : List Text} (h : ∀ text ∈ body, IsPlainStatement text)
    (hrest : Spelled Members rest) : Spelled Members (constructor body ++ rest) := by
  unfold constructor
  split
  · exact hrest.behind [.space, .space, .keyword .kwConstructor, .mark .parenOpen,
        .mark .parenClose, .space, .mark .braceOpen, .mark .braceClose, .newline]
      (fun _ hls => ⟨trivial, rfl, trivial, rfl, trivial, rfl, rfl, rfl, rfl, rfl, trivial, rfl,
        rfl, rfl, rfl, rfl, trivial, rfl, hls⟩)
      (fun _ _ _ hus => .constructor .noStatements hus)
  · have htext : indent ++ "constructor() \x7b\n" ++ lines 2 body ++ indent ++ "\x7d\n" ++ rest =
        texts [.space, .space, .keyword .kwConstructor, .mark .parenOpen, .mark .parenClose,
          .space, .mark .braceOpen, .newline] ++
            (lines 2 body ++ (texts [.space, .space, .mark .braceClose, .newline] ++ rest)) := by
      simp only [texts_cons, List.append_assoc]
      rfl
    rw [htext]
    exact (spelled_lines 2 h).join hrest _ _ _
      (fun _ hls => ⟨trivial, rfl, trivial, rfl, trivial, rfl, rfl, rfl, rfl, rfl, trivial, rfl,
        rfl, rfl, trivial, rfl, hls⟩)
      (fun _ hls => ⟨trivial, rfl, trivial, rfl, rfl, rfl, trivial, rfl, hls⟩) rfl
      (fun _ _ _ _ _ _ hts hus _ => .constructor hts hus)

theorem spelled_method {m : ClassMethod} (hm : m.IsPlain) (hrest : Spelled Members rest) :
    Spelled Members (method m ++ rest) := by
  have hname : (Lexeme.name m.name).WellFormed := hm.name
  have htext : method m ++ rest =
      texts [.newline, .space, .space, .name m.name, .mark .parenOpen, .mark .parenClose,
        .space, .mark .braceOpen, .newline] ++
          (lines 2 m.statements ++
            (texts [.space, .space, .mark .braceClose, .newline] ++ rest)) := by
    simp only [method, hm.params, texts_cons, List.append_assoc]
    rfl
  rw [htext]
  exact (spelled_lines 2 hm.statements).join hrest _ _ _
    (fun _ hls => ⟨trivial, rfl, trivial, rfl, trivial, rfl, hname, rfl, rfl, rfl, rfl, rfl,
      trivial, rfl, rfl, rfl, trivial, rfl, hls⟩)
    (fun _ hls => ⟨trivial, rfl, trivial, rfl, rfl, rfl, trivial, rfl, hls⟩) rfl
    (fun _ _ _ _ _ _ hts hus _ => .method hm.name.ne_constructor hts hus)

theorem spelled_methods {ms : List ClassMethod} (h : ∀ m ∈ ms, m.IsPlain) :
    Spelled Members (ms.map method).flatten := by
  induction ms with
  | nil => exact spelled_nil.mono fun us hus => hus ▸ .none
  | cons m more ih =>
      obtain ⟨hm, hmore⟩ := List.forall_mem_cons.1 h
      exact spelled_method hm (ih hmore)

/-- The class without its decorator. -/
theorem spelled_entity {c : TargetClass} (hc : c.IsPlain) :
    Spelled (ClassExport c.name) (entity c) := by
  have hname : (Lexeme.name c.name).WellFormed := hc.name
  have hmembers := spelled_properties hc.properties
    (spelled_constructor hc.constructorBody (spelled_methods hc.methods))
  have htext : entity c =
      texts [.keyword .kwExport, .space, .keyword .kwDefault, .space, .keyword .kwClass, .space,
        .name c.name, .space, .mark .braceOpen, .newline] ++
          ((properties c.properties ++ (constructor c.constructorBody ++
            (c.methods.map method).flatten)) ++ (texts [.mark .braceClose, .newline] ++ [])) := by
    simp only [entity, texts_cons, List.append_assoc]
    rfl
  rw [htext]
  refine hmembers.join spelled_nil _ _ _
    (fun _ hls => ⟨trivial, rfl, trivial, rfl, trivial, rfl, trivial, rfl, trivial, rfl, trivial,
      rfl, hname, rfl, trivial, rfl, rfl, rfl, trivial, rfl, hls⟩)
    (fun _ hls => ⟨rfl, rfl, trivial, rfl, hls⟩) rfl ?_
  rintro gap pos gap' pos' ts us hts rfl -
  exact .mk hts

/-! ## Imports -/

theorem spelled_importLines {t : Target}
    (h : ∀ text ∈ t.importTexts, Spelled Import (ScriptItem.terminated text)) :
    Spelled Imports (importLines t) := by
  unfold importLines
  generalize t.importTexts = imports at h
  induction imports with
  | nil => exact spelled_nil.mono fun us hus => hus ▸ .none
  | cons text more ih =>
      obtain ⟨htext, hmore⟩ := List.forall_mem_cons.1 h
      rw [List.map_cons, List.flatten_cons, List.append_assoc]
      exact htext.join (ih hmore) [] .newline [] (fun _ hls => hls)
        (fun _ hls => ⟨trivial, rfl, hls⟩) rfl
        (fun _ _ _ _ us vs hus hvs _ => @Imports.more us vs hus hvs)

/-! ## The decorator call -/

inductive IsEntry : List Token → Prop
  | mk {kind : TokenKind} {key colon : Place} {us : List Token} (hkey : IsKey kind)
      (hvalue : Phrase .assignment us) :
      IsEntry (plainToken kind key :: plainToken (.punct .colon) colon :: us)

theorem spelled_entry {e : MetadataEntry} (he : e.IsPlain) : Spelled IsEntry (entry e) := by
  obtain ⟨l, kind, hl, hrun, hkeyText, hkind, hkey⟩ := he.key.exists_lexeme
  have htext : entry e = texts [.space, .space, l, .mark .colon, .space] ++ e.value := by
    simp only [entry, texts_cons, List.append_assoc, hkeyText]
    rfl
  have hcolon : l.mayPrecede [.mark .colon] = true := by
    cases l <;> first | rfl | cases hrun
  rw [htext]
  refine he.value.behind _
    (fun _ hls => ⟨trivial, rfl, trivial, rfl, hl, ?_, rfl, rfl, trivial, rfl, hls⟩)
    (fun gap pos us hus => ?_)
  · exact (mayPrecede_cons _ _ _ _).trans hcolon
  · simp only [tokensOf, hkind]
    exact .mk hkey hus

theorem spelled_entries {es : List MetadataEntry} (hes : es ≠ []) (h : ∀ e ∈ es, e.IsPlain) :
    Spelled (Phrase .entries) (Text.joinWith ",\n" (es.map entry)) := by
  refine spelled_joinWith (P := IsEntry) (.mark .comma) [.newline]
    (fun _ hls => ⟨rfl, rfl, trivial, rfl, hls⟩) rfl ?_ ?_ (by simpa using hes) ?_
  · rintro ts ⟨hkey, hvalue⟩
    exact .lastEntry hkey hvalue
  · rintro gap pos ts us ⟨hkey, hvalue⟩ hus
    exact .entry hkey hvalue hus
  · intro piece hpiece
    obtain ⟨e, he, rfl⟩ := List.mem_map.1 hpiece
    exact spelled_entry (h e he)

inductive IsCallStatement : List Token → Prop
  | mk {name : Text} {place stop : Place} {us : List Token}
      (hcall : Phrase .assignment (plainToken (.name name) place :: us)) :
      IsCallStatement (plainToken (.name name) place ::
        (us ++ [plainToken (.punct .semicolon) stop]))

theorem isCallStatement_object {name : Text} {place opening closing start last stop : Place}
    {us : List Token} (hus : Phrase .properties us) :
    IsCallStatement (plainToken (.name name) place :: plainToken (.punct .parenOpen) opening ::
      plainToken (.punct .braceOpen) start :: (us ++ [plainToken (.punct .braceClose) last,
        plainToken (.punct .parenClose) closing, plainToken (.punct .semicolon) stop])) := by
  have hobject : Phrase .operand (plainToken (.punct .braceOpen) start ::
      (us ++ plainToken (.punct .braceClose) last :: [])) := .object hus .noLinks
  have hargs := Phrase.items (.lastItem (.value (.single hobject)))
  have hcall : Phrase .assignment (plainToken (.name name) place ::
      plainToken (.punct .parenOpen) opening ::
        (plainToken (.punct .braceOpen) start :: (us ++ [plainToken (.punct .braceClose) last]) ++
          plainToken (.punct .parenClose) closing :: [])) :=
    .value (.single (.atom (.name name) (.call hargs .noLinks)))
  simpa using IsCallStatement.mk hcall

theorem spelled_decoratorCall {c : TargetClass} (hc : c.IsPlain) :
    Spelled IsCallStatement (decoratorCall c ++ ";") := by
  have hname : (Lexeme.name c.decorator).WellFormed := hc.decorator
  unfold decoratorCall
  split
  · have htext : (c.decorator ++ "(\x7b\x7d)" ++ ";" : Text) =
        texts [.name c.decorator, .mark .parenOpen, .mark .braceOpen, .mark .braceClose,
          .mark .parenClose, .mark .semicolon] ++ [] := by
      simp only [texts_cons, List.append_assoc]
      rfl
    rw [htext]
    refine spelled_nil.behind _
      (fun _ hls => ⟨hname, rfl, rfl, rfl, rfl, rfl, rfl, rfl, rfl, rfl, rfl, rfl, hls⟩) ?_
    rintro gap pos us rfl
    exact isCallStatement_object .noEntries
  · rename_i hempty
    have hes : c.metadata.entries ≠ [] := by
      simpa [Metadata.isEmpty] using hempty
    have htext : (c.decorator ++ "(\x7b\n" ++
          Text.joinWith ",\n" (c.metadata.entries.map entry) ++ "\n\x7d)" ++ ";" : Text) =
        texts [.name c.decorator, .mark .parenOpen, .mark .braceOpen, .newline] ++
          (Text.joinWith ",\n" (c.metadata.entries.map entry) ++
            (texts [.newline, .mark .braceClose, .mark .parenClose, .mark .semicolon] ++ [])) := by
      simp only [texts_cons, List.append_assoc]
      rfl
    rw [htext]
    refine (spelled_entries hes hc.metadata).join spelled_nil _ _ _
      (fun _ hls => ⟨hname, rfl, rfl, rfl, rfl, rfl, trivial, rfl, hls⟩)
      (fun _ hls => ⟨trivial, rfl, rfl, rfl, rfl, rfl, rfl, rfl, hls⟩) rfl ?_
    rintro gap pos gap' pos' ts us hts rfl -
    exact isCallStatement_object (.entries hts)

end Render

/-! ## Formatting -/

theorem Formatting.reprint_of_parse {text : Text} {program : Program}
    (h : Program.parse text = .ok program) (file : Text) :
    Formatting.reprint file text = .ok program.print := by
  rw [Formatting.reprint, h]

/-- A plain target can be formatted. -/
theorem Target.format_of_isPlain {t : Target} (h : t.IsPlain) : ∃ text, t.format = .ok text := by
  have hbody : Spelled
      (fun ts => ∃ us vs, ts = us ++ vs ∧ Imports us ∧ ClassExport t.entity.name vs)
      (Render.importLines t ++ "\n" ++ Render.entity t.entity) := by
    rw [List.append_assoc]
    exact (Render.spelled_importLines h.imports).join (Render.spelled_entity h.entity) []
      .newline [] (fun _ hls => hls) (fun _ hls => ⟨trivial, rfl, hls⟩) rfl
      (fun _ _ _ _ us vs hus hvs _ => ⟨us, vs, rfl, hus, hvs⟩)
  obtain ⟨_, last, htokens, ⟨us, vs, rfl, hus, hvs⟩, hstop, hlength⟩ := hbody.exists_tokens
  rw [List.append_assoc us] at htokens
  rw [List.length_append] at hlength
  obtain ⟨program, ss, s, hparse, hdirectives, hstatements, hss, hs⟩ :=
    parse_script htokens hstop hlength hus hvs
  obtain ⟨before, after, hline⟩ := Program.exists_classLine hdirectives hstatements hss hs
  obtain ⟨_, last, htokens, ⟨hcall⟩, hstop, hlength⟩ :=
    (Render.spelled_decoratorCall h.entity).exists_tokens
  rw [List.length_cons, List.length_append] at hlength
  obtain ⟨decorator, hdecorator⟩ := parse_expression (.name _) hcall htokens hstop hlength
  cases hplace : Formatting.place? program.print decorator.print with
  | none =>
      rw [Formatting.place?, Option.map_eq_none_iff,
        Formatting.splitAtLine?_eq_none_iff (by decide)] at hplace
      exact absurd hline (hplace before after)
  | some text =>
      refine ⟨text, ?_⟩
      simp only [Target.format, Formatting.reprint_of_parse hparse,
        Formatting.reprint_of_parse hdecorator, hplace, bind, Except.bind]
      rfl

end NgFile
