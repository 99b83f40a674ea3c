import NgFile.Target.Lift
import NgFile.Proofs.DecoratorReading

/-!
# The text of a scaffold

A scaffold is made of lexemes: an import, a decorator call with one entry a line, and a
class.  Its text is theirs, and with a selector that needs no escapes the lexemes stay
apart in it.  What is lifted from the trees of the entries is the entries again.
-/

namespace NgFile

open Syntax Syntax.Parser Lexeme

/-! ## Entries -/

namespace PlainEntry

def WellFormed (e : PlainEntry) : Prop :=
  (Lexeme.name e.key).WellFormed ∧ Separated e.value.lexemes

def entry (e : PlainEntry) : MetadataEntry :=
  ⟨e.key, texts e.value.lexemes⟩

theorem texts_lexemes (e : PlainEntry) :
    texts e.lexemes = (e.key ++ [':', ' ']) ++ texts e.value.lexemes := by
  simp [lexemes, texts_cons, text, markChar?]

theorem separated_lexemes {e : PlainEntry} (he : e.WellFormed) : Separated e.lexemes :=
  ⟨he.1, rfl, rfl, rfl, trivial, rfl, he.2⟩

theorem separated_listLexemes {es : List PlainEntry} (hes : ∀ e ∈ es, e.WellFormed) :
    Separated (listLexemes es) := by
  induction es with
  | nil => trivial
  | cons e more ih =>
      have he := separated_lexemes (hes e List.mem_cons_self)
      have hmore := ih fun e' h => hes e' (List.mem_cons_of_mem e h)
      cases more with
      | nil => exact he
      | cons e' more =>
          rw [listLexemes_cons]
          refine separated_append he ⟨rfl, rfl, trivial, rfl, trivial, rfl, trivial, rfl, hmore⟩ ?_
          intro next hnext
          cases hnext
          rfl

/-- The text of entries on lines of their own is that of the entries, joined. -/
theorem texts_listLexemes (es : List PlainEntry) :
    texts (listLexemes es) =
      Text.joinWith ",\n  " (es.map fun e => Scaffold.entryText e.entry) := by
  induction es with
  | nil => rfl
  | cons e more ih =>
      have he : texts e.lexemes = Scaffold.entryText e.entry := by
        rw [texts_lexemes]
        rfl
      cases more with
      | nil => exact he
      | cons e' more =>
          have hjoin : Text.joinWith ",\n  "
                ((e :: e' :: more).map fun e => Scaffold.entryText e.entry) =
              Scaffold.entryText e.entry ++ ",\n  " ++
                Text.joinWith ",\n  "
                  ((e' :: more).map fun e => Scaffold.entryText e.entry) := rfl
          have hseparator :
              texts (.mark .comma :: .newline :: .space :: .space :: listLexemes (e' :: more)) =
                ",\n  " ++ texts (listLexemes (e' :: more)) := rfl
          rw [hjoin, ← ih, listLexemes_cons, texts_append, hseparator, he, List.append_assoc]

theorem valueText_property (e : PlainEntry) (before after : Text) :
    (e.property before.length).valueText (before ++ (texts e.lexemes ++ after)) =
      texts e.value.lexemes := by
  have hslice := Text.slice_append_middle (before ++ (e.key ++ [':', ' ']))
    (texts e.value.lexemes) after
  have hstart : (before ++ (e.key ++ [':', ' '])).length = before.length + e.key.length + 2 := by
    simp [Nat.add_assoc]
  have hsource : before ++ (texts e.lexemes ++ after) =
      before ++ (e.key ++ [':', ' ']) ++ (texts e.value.lexemes ++ after) := by
    simp only [texts_lexemes, List.append_assoc]
  rw [hstart] at hslice
  simp only [property, Property.valueText, PlainValue.loc_tree, Loc.text, hsource]
  exact hslice

theorem texts_listLexemes_cons (e e' : PlainEntry) (more : List PlainEntry) :
    texts (listLexemes (e :: e' :: more)) =
      texts e.lexemes ++ (",\n  " ++ texts (listLexemes (e' :: more))) := by
  rw [listLexemes_cons, texts_append]
  rfl

/-- The trees of entries give back the keys and the texts of the values. -/
theorem mapM_properties (es : List PlainEntry) (before after : Text) :
    ((properties before.length es).mapM fun p =>
      p.static?.map fun key =>
        (⟨key, p.valueText (before ++ (texts (listLexemes es) ++ after))⟩ : MetadataEntry)) =
      some (es.map entry) := by
  induction es generalizing before with
  | nil => rfl
  | cons e more ih =>
      have hkey (pos : Nat) : (e.property pos).static? = some e.key := rfl
      cases more with
      | nil =>
          have hvalue := valueText_property e before after
          simp only [properties, listLexemes, List.mapM_cons, List.mapM_nil, hkey,
            Option.map_some, hvalue]
          rfl
      | cons e' more =>
          have hvalue := valueText_property e before
            (",\n  " ++ texts (listLexemes (e' :: more)) ++ after)
          have hmore := ih (before ++ texts e.lexemes ++ ",\n  ")
          have hstart : (before ++ texts e.lexemes ++ ",\n  ").length =
              before.length + e.length + 4 := by
            simp only [List.length_append, PlainEntry.length]
            rfl
          have hsource : before ++ (texts (listLexemes (e :: e' :: more)) ++ after) =
              before ++ (texts e.lexemes ++
                (",\n  " ++ texts (listLexemes (e' :: more)) ++ after)) := by
            simp only [texts_listLexemes_cons, List.append_assoc]
          have hsource' : before ++ texts e.lexemes ++ ",\n  " ++
                (texts (listLexemes (e' :: more)) ++ after) =
              before ++ (texts e.lexemes ++
                (",\n  " ++ texts (listLexemes (e' :: more)) ++ after)) := by
            simp only [List.append_assoc]
          rw [hstart, hsource'] at hmore
          rw [hsource, properties, List.mapM_cons, hkey, hmore]
          simp only [Option.map_some, hvalue]
          rfl

/-- What is lifted from the trees of entries is the entries. -/
theorem liftMetadata?_properties (es : List PlainEntry) (before after : Text) :
    TargetClass.liftMetadata? (before ++ (texts (listLexemes es) ++ after))
        (properties before.length es) = some (Metadata.ofEntries (es.map entry)) := by
  rw [TargetClass.liftMetadata?, mapM_properties]
  rfl

end PlainEntry

theorem separated_objectLexemes {es : List PlainEntry} (hes : ∀ e ∈ es, e.WellFormed) :
    Separated (objectLexemes es) := by
  have hlist := PlainEntry.separated_listLexemes hes
  refine ⟨rfl, rfl, trivial, rfl, trivial, rfl, trivial, rfl, ?_⟩
  refine separated_append hlist (by decide) ?_
  intro next hnext
  cases hnext
  rfl

theorem separated_callLexemes {name : Text} (hname : (Lexeme.name name).WellFormed)
    {es : List PlainEntry} (hes : ∀ e ∈ es, e.WellFormed) : Separated (callLexemes name es) := by
  have hobject := separated_objectLexemes hes
  refine ⟨hname, rfl, rfl, rfl, ?_⟩
  refine separated_append hobject (by decide) ?_
  intro next hnext
  cases hnext
  rfl

/-! ## Scaffolds -/

namespace Scaffold

def importLexemes (kind : EntityKind) : List Lexeme :=
  let bindings : List Lexeme := match kind with
    | .component => [.name "Component", .mark .comma, .space, .name "ChangeDetectionStrategy"]
    | .directive => [.name "Directive"]
  .keyword .kwImport :: .space :: .mark .braceOpen :: .space ::
    (bindings ++ [.space, .mark .braceClose, .space, .keyword .kwFrom, .space,
      .string coreModule, .mark .semicolon])

def classLexemes : List Lexeme :=
  [.keyword .kwExport, .space, .keyword .kwDefault, .space, .keyword .kwClass, .space,
    .name entityClassName, .space, .mark .braceOpen, .newline, .space, .space,
    .keyword .kwConstructor, .mark .parenOpen, .mark .parenClose, .space, .mark .braceOpen,
    .mark .braceClose, .newline, .mark .braceClose, .newline]

def plainEntries (names : Names) (template style : Text) (kind : EntityKind) : List PlainEntry :=
  ⟨"standalone", .yes⟩ :: ⟨"selector", .quoted names.selector⟩ ::
    match kind with
    | .component =>
        [⟨"changeDetection", .member "ChangeDetectionStrategy" "OnPush"⟩,
          ⟨"template", .template (inlineTemplate template style)⟩]
    | .directive => []

def lexemes (names : Names) (template style : Text) (kind : EntityKind) : List Lexeme :=
  importLexemes kind ++
    (.newline :: .newline :: .mark .at ::
      (callLexemes kind.decoratorName (plainEntries names template style kind) ++
        (.newline :: classLexemes)))

theorem map_entry_plainEntries (names : Names) (template style : Text) (kind : EntityKind) :
    (plainEntries names template style kind).map PlainEntry.entry =
      entries names template style kind := by
  have hquoted : texts [Lexeme.string names.selector] = "'" ++ names.selector ++ "'" :=
    List.append_nil _
  have htemplate : texts [Lexeme.template (inlineTemplate template style)] =
      templateLiteral (inlineTemplate template style) := List.append_nil _
  cases kind with
  | component =>
      simp only [plainEntries, List.map_cons, List.map_nil, PlainEntry.entry, PlainValue.lexemes,
        hquoted, htemplate]
      rfl
  | directive =>
      simp only [plainEntries, List.map_cons, List.map_nil, PlainEntry.entry, PlainValue.lexemes,
        hquoted]
      rfl

theorem texts_importLexemes (kind : EntityKind) :
    texts (importLexemes kind) =
      "import \x7b " ++ coreImports kind ++ " \x7d from '" ++ coreModule ++ "';" := by
  cases kind <;> rfl

theorem texts_callLexemes (name : Text) (es : List PlainEntry) :
    texts (callLexemes name es) =
      name ++ "(\x7b\n  " ++ Text.joinWith ",\n  " (es.map fun e => entryText e.entry) ++
        "\n\x7d)" := by
  have hcall : texts (callLexemes name es) =
      name ++ ("(\x7b\n  " ++
        texts (PlainEntry.listLexemes es ++ [.newline, .mark .braceClose] ++
          [.mark .parenClose])) := rfl
  rw [hcall, texts_append, texts_append, PlainEntry.texts_listLexemes]
  simp only [List.append_assoc]
  rfl

/-- The text of the lexemes of a scaffold is the scaffold. -/
theorem texts_lexemes (names : Names) (template style : Text) (kind : EntityKind) :
    texts (lexemes names template style kind) = synthesize names template style kind := by
  have hentries : (plainEntries names template style kind).map (fun e => entryText e.entry) =
      (entries names template style kind).map entryText := by
    rw [← map_entry_plainEntries, List.map_map]
    rfl
  have hstart (ls : List Lexeme) : texts (.newline :: .newline :: .mark .at :: ls) =
      "\n\n@" ++ texts ls := rfl
  have hclass : texts (.newline :: classLexemes) =
      "\nexport default class " ++ entityClassName ++
        " \x7b\n  constructor() \x7b\x7d\n\x7d\n" := rfl
  have hscaffold : synthesize names template style kind =
      "import \x7b " ++ coreImports kind ++ " \x7d from '" ++ coreModule ++ ("';" ++ "\n\n@") ++
        kind.decoratorName ++ "(\x7b\n  " ++
        Text.joinWith ",\n  " ((entries names template style kind).map entryText) ++
        ("\n\x7d)" ++ "\nexport default class ") ++ entityClassName ++
        " \x7b\n  constructor() \x7b\x7d\n\x7d\n" := rfl
  rw [lexemes, texts_append, hstart, texts_append, texts_importLexemes, texts_callLexemes, hclass,
    hentries, hscaffold]
  simp only [List.append_assoc]

theorem wellFormed_plainEntries {names : Names} (h : IsVerbatim names.selector)
    (template style : Text) (kind : EntityKind) :
    ∀ e ∈ plainEntries names template style kind, e.WellFormed := by
  have hselector : (Lexeme.name "selector").WellFormed := by decide
  have htemplate : (Lexeme.name "template").WellFormed := by decide
  intro e he
  cases kind with
  | component =>
      simp only [plainEntries, List.mem_cons, List.not_mem_nil, or_false] at he
      rcases he with rfl | rfl | rfl | rfl
      · exact ⟨by decide, by decide⟩
      · exact ⟨hselector, h, rfl, trivial⟩
      · exact ⟨by decide, by decide⟩
      · exact ⟨htemplate, trivial, rfl, trivial⟩
  | directive =>
      simp only [plainEntries, List.mem_cons, List.not_mem_nil, or_false] at he
      rcases he with rfl | rfl
      · exact ⟨by decide, by decide⟩
      · exact ⟨hselector, h, rfl, trivial⟩

/-- The lexemes of a scaffold are read back as they are, if the selector needs no escapes. -/
theorem separated_lexemes {names : Names} (h : IsVerbatim names.selector) (template style : Text)
    (kind : EntityKind) : Separated (lexemes names template style kind) := by
  have himport : Separated (importLexemes kind) := by
    cases kind <;> decide
  have hname : (Lexeme.name kind.decoratorName).WellFormed := by
    cases kind <;> decide
  have hcall := separated_callLexemes hname (wellFormed_plainEntries h template style kind)
  have hclass : Separated (.newline :: classLexemes) := by decide
  have hdecorated := separated_append hcall hclass (by decide)
  refine separated_append himport ⟨trivial, rfl, trivial, rfl, rfl, rfl, hdecorated⟩ ?_
  intro next hnext
  cases hnext
  rfl

end Scaffold

end NgFile
