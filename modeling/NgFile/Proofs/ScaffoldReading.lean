import NgFile.Compile
import NgFile.Proofs.Naming
import NgFile.Proofs.ScaffoldText

/-!
# Reading scaffolds

The parsers read the lexemes of a scaffold back: its statements are the import and the
decorated class.  So a scaffold parses, and what is lifted from it has the entries that
were written.
-/

namespace NgFile

open Syntax Syntax.Parser Lexeme

namespace Scaffold

/-! ## Reading the statements -/

section Statements

def importLength (kind : EntityKind) : Nat :=
  (texts (importLexemes kind)).length

variable {self : Productions} {c : Context} {pos n stop : Nat} {gap : Gap} {rest : List Token}
variable {defaults spreads : List Nat}

theorem statement_import (kind : EntityKind) (hlimit : c.limit = n + 3) :
    ∃ decl, statement self .listed c
        ⟨tokensOf .nothing 0 (importLexemes kind) ++ rest, stop, defaults, spreads⟩ =
      .ok (.importDecl ⟨0, importLength kind, []⟩ decl,
        ⟨rest, importLength kind, defaults, spreads⟩) := by
  obtain ⟨source, limit, allowIn, inAwait, inYield, inFunction, inDecorator, inAmbient,
    allowConditional⟩ := c
  cases hlimit
  cases kind <;> exact ⟨_, rfl⟩

def constructorTree (pos : Nat) : Member :=
  .method ⟨pos, pos + 16, []⟩ [] .none .constructor (.name ⟨⟨pos, pos + 11, []⟩, "constructor"⟩)
    false
    (.mk ⟨pos + 11, pos + 16, []⟩ false false none [] ⟨pos + 11, pos + 13, []⟩ [] none true [] []
      [] false)

def classTree (pos : Nat) (decorator : Expr) : Syntax.Class :=
  .mk [decorator] false false (some ⟨⟨pos + 21, pos + 35, []⟩, entityClassName⟩) [] none [] []
    [constructorTree (pos + 40)]

theorem exportDeclaration_class (decorator : Expr) (hlimit : c.limit = n + 3)
    (hambient : c.inAmbient = false) :
    exportDeclaration self [decorator] c
        ⟨tokensOf gap pos classLexemes ++ rest, stop, defaults, spreads⟩ =
      .ok (.exportDefault ⟨pos, pos + 58, []⟩
          (.classDecl ⟨pos + 15, pos + 58, []⟩ (classTree pos decorator)),
        ⟨rest, pos + 58, defaults, spreads⟩) := by
  obtain ⟨source, limit, allowIn, inAwait, inYield, inFunction, inDecorator, inAmbient,
    allowConditional⟩ := c
  cases hlimit
  cases hambient
  rfl

def decoratorStep (self : Productions) : Parser (Option Expr) := do
  if ← eat .at then
    let e ← within (fun c => { c with inDecorator := true }) (self .leftHandSide)
    pure (some e)
  else pure none

theorem decorators_eq (self : Productions) : decorators self = many (decoratorStep self) := rfl

theorem decorators_call (name : Text) {es : List PlainEntry} (hes : es ≠ []) (place next : Place)
    (hlimit : es.length + 2 < c.limit) :
    decorators (productions (n + 3)) c
        ⟨plainToken (.punct .at) place :: (tokensOf gap place.stop (callLexemes name es) ++
          plainToken (.keyword .kwExport false) next :: rest), stop, defaults, spreads⟩ =
      .ok ([callTree place.stop name es],
        ⟨plainToken (.keyword .kwExport false) next :: rest, place.stop + callLength name es,
          defaults, spreads⟩) := by
  have hcall : productions (n + 3) .leftHandSide { c with inDecorator := true }
        ⟨tokensOf gap place.stop (callLexemes name es) ++
          plainToken (.keyword .kwExport false) next :: rest, place.stop, defaults, spreads⟩ =
      .ok (callTree place.stop name es,
        ⟨plainToken (.keyword .kwExport false) next :: rest, place.stop + callLength name es,
          defaults, spreads⟩) := by
    have hlimit' : es.length + 1 < c.limit := by omega
    exact leftHandSide_decoratorCall name hes ⟨_, _, _, rfl, .exportWord⟩ hlimit'
  have hfirst : decoratorStep (productions (n + 3)) c
        ⟨plainToken (.punct .at) place :: (tokensOf gap place.stop (callLexemes name es) ++
          plainToken (.keyword .kwExport false) next :: rest), stop, defaults, spreads⟩ =
      .ok (some (callTree place.stop name es),
        ⟨plainToken (.keyword .kwExport false) next :: rest, place.stop + callLength name es,
          defaults, spreads⟩) := by
    simp [decoratorStep, bind_apply, eat_hit, within_apply, hcall, pure_apply]
  have hsecond : decoratorStep (productions (n + 3)) c
        ⟨plainToken (.keyword .kwExport false) next :: rest, place.stop + callLength name es,
          defaults, spreads⟩ =
      .ok (none, ⟨plainToken (.keyword .kwExport false) next :: rest,
        place.stop + callLength name es, defaults, spreads⟩) := by
    simp [decoratorStep, bind_apply, eat_miss, pure_apply]
  have hone : 1 < c.limit := by omega
  rw [decorators_eq]
  exact many_of_steps (.more hfirst (.done hsecond)) hone

theorem statement_class (name : Text) {es : List PlainEntry} (hes : es ≠ []) (place : Place)
    {classPos : Nat} (hpos : place.stop + callLength name es + 1 = classPos)
    (hlimit : es.length + 3 ≤ c.limit) (hambient : c.inAmbient = false) :
    statement (productions (n + 3)) .listed c
        ⟨plainToken (.punct .at) place :: (tokensOf gap place.stop
          (callLexemes name es ++ .newline :: classLexemes) ++ rest), stop, defaults, spreads⟩ =
      .ok (.exportDefault ⟨classPos, classPos + 58, []⟩
          (.classDecl ⟨classPos + 15, classPos + 58, []⟩
            (classTree classPos (callTree place.stop name es))),
        ⟨rest, classPos + 58, defaults, spreads⟩) := by
  have htokens : tokensOf gap place.stop (callLexemes name es ++ .newline :: classLexemes) =
      tokensOf gap place.stop (callLexemes name es) ++ tokensOf .newline classPos classLexemes := by
    rw [tokensOf_append, ← hpos]
    rfl
  obtain ⟨tail, htail⟩ : ∃ tail, tokensOf .newline classPos classLexemes ++ rest =
      plainToken (.keyword .kwExport false) ⟨classPos, classPos + 6, .newline⟩ :: tail := ⟨_, rfl⟩
  have hword (stop : Nat) : atWord .kwExport c
        ⟨plainToken (.keyword .kwExport false) ⟨classPos, classPos + 6, .newline⟩ :: tail, stop,
          defaults, spreads⟩ =
      .ok (true, ⟨plainToken (.keyword .kwExport false) ⟨classPos, classPos + 6, .newline⟩ :: tail,
        stop, defaults, spreads⟩) := rfl
  have hclass (stop : Nat) :
      exportDeclaration (productions (n + 3)) [callTree place.stop name es] c
        ⟨plainToken (.keyword .kwExport false) ⟨classPos, classPos + 6, .newline⟩ :: tail, stop,
          defaults, spreads⟩ =
      .ok (.exportDefault ⟨classPos, classPos + 58, []⟩
          (.classDecl ⟨classPos + 15, classPos + 58, []⟩
            (classTree classPos (callTree place.stop name es))),
        ⟨rest, classPos + 58, defaults, spreads⟩) := by
    obtain ⟨m, hm⟩ : ∃ m, c.limit = m + 3 := ⟨c.limit - 3, by omega⟩
    rw [← htail]
    exact exportDeclaration_class _ hm hambient
  have hcount : es.length + 2 < c.limit := by omega
  rw [htokens, List.append_assoc, htail]
  simp [statement, markedStatement, peek_cons, decoratedStatement, bind_apply, mark_cons,
    decorators_call name hes place _ hcount, hword, hclass, pure_apply]

theorem topStep_import (kind : EntityKind) (rest : List Token) (hlimit : 3 ≤ c.limit) :
    ∃ decl, topStep (productions (n + 1)) c
        ⟨tokensOf .nothing 0 (importLexemes kind) ++ rest, 0, [], []⟩ =
      .ok (some (.importDecl ⟨0, importLength kind, []⟩ decl),
        ⟨rest, importLength kind, [], []⟩) := by
  obtain ⟨m, hm⟩ : ∃ m, c.limit = m + 3 := ⟨c.limit - 3, by omega⟩
  obtain ⟨tail, htail⟩ : ∃ tail, tokensOf .nothing 0 (importLexemes kind) ++ rest =
      plainToken (.keyword .kwImport false) ⟨0, 6, .nothing⟩ :: tail := by
    cases kind <;> exact ⟨_, rfl⟩
  obtain ⟨decl, himport⟩ := statement_import kind hm
  refine ⟨decl, ?_⟩
  rw [htail] at himport ⊢
  exact topStep_of_statement (by simp) himport

end Statements

/-! ## Reading the whole text -/

def atPlace (kind : EntityKind) : Place :=
  ⟨importLength kind + 2, importLength kind + 3, .newline⟩

def classStart (names : Names) (template style : Text) (kind : EntityKind) : Nat :=
  (atPlace kind).stop +
    callLength kind.decoratorName (plainEntries names template style kind) + 1

def classStatement (names : Names) (template style : Text) (kind : EntityKind) : Stmt :=
  let start := classStart names template style kind
  .exportDefault ⟨start, start + 58, []⟩
    (.classDecl ⟨start + 15, start + 58, []⟩
      (classTree start
        (callTree (atPlace kind).stop kind.decoratorName
          (plainEntries names template style kind))))

theorem length_plainEntries (names : Names) (template style : Text) (kind : EntityKind) :
    (plainEntries names template style kind).length ≤ 4 := by
  cases kind <;> simp [plainEntries]

theorem tokensOf_lexemes (names : Names) (template style : Text) (kind : EntityKind)
    (rest : List Token) :
    tokensOf .nothing 0 (lexemes names template style kind) ++ rest =
      tokensOf .nothing 0 (importLexemes kind) ++
        plainToken (.punct .at) (atPlace kind) ::
          (tokensOf .nothing (atPlace kind).stop
            (callLexemes kind.decoratorName (plainEntries names template style kind) ++
              .newline :: classLexemes) ++ rest) := by
  rw [lexemes, tokensOf_append, Nat.zero_add, List.append_assoc]
  rfl

theorem topStep_class (names : Names) (template style : Text) (kind : EntityKind) (n stop : Nat)
    (rest : List Token) {c : Context} (hlimit : 7 ≤ c.limit) (hambient : c.inAmbient = false) :
    topStep (productions (n + 4)) c
        ⟨plainToken (.punct .at) (atPlace kind) ::
          (tokensOf .nothing (atPlace kind).stop
            (callLexemes kind.decoratorName (plainEntries names template style kind) ++
              .newline :: classLexemes) ++ rest), stop, [], []⟩ =
      .ok (some (classStatement names template style kind),
        ⟨rest, classStart names template style kind + 58, [], []⟩) := by
  have hne : plainEntries names template style kind ≠ [] := by
    cases kind <;> exact List.cons_ne_nil _ _
  have hcount : (plainEntries names template style kind).length + 3 ≤ c.limit := by
    have := length_plainEntries names template style kind
    omega
  exact topStep_of_statement (by simp)
    (statement_class kind.decoratorName hne (atPlace kind) rfl hcount hambient)

/-- The statements of a scaffold are its import and its class. -/
theorem steps_lexemes (names : Names) (template style : Text) (kind : EntityKind) (n : Nat)
    {c : Context} (hlimit : 7 ≤ c.limit) (hambient : c.inAmbient = false) {t : Token}
    (ht : t.kind = .stop) :
    ∃ decl, Steps (topStep (productions (n + 4))) c
      ⟨tokensOf .nothing 0 (lexemes names template style kind) ++ [t], 0, [], []⟩
      [.importDecl ⟨0, importLength kind, []⟩ decl, classStatement names template style kind]
      ⟨[t], classStart names template style kind + 58, [], []⟩ := by
  have hthree : 3 ≤ c.limit := by omega
  rw [tokensOf_lexemes]
  obtain ⟨decl, himport⟩ := topStep_import kind _ hthree
  have hclass := topStep_class names template style kind n (importLength kind) [t] hlimit hambient
  exact ⟨decl, .more himport (.more hclass (.done (topStep_stop t ht)))⟩

theorem length_synthesize (names : Names) (template style : Text) (kind : EntityKind) :
    6 ≤ (synthesize names template style kind).length := by
  rw [← texts_lexemes, lexemes, texts_append, List.length_append]
  have himport : 6 ≤ (texts (importLexemes kind)).length := by
    cases kind <;> decide
  omega

/-- A scaffold parses, if its selector needs no escapes. -/
theorem parse_synthesize {names : Names} (h : IsVerbatim names.selector) (template style : Text)
    (kind : EntityKind) :
    ∃ program decl, Program.parse (synthesize names template style kind) = .ok program ∧
      program.body = [.importDecl ⟨0, importLength kind, []⟩ decl,
        classStatement names template style kind] := by
  have hlength := length_synthesize names template style kind
  have htokens := tokens_texts (separated_lexemes h template style kind)
  rw [texts_lexemes] at htokens
  have hlimit : 7 ≤ (topContext (synthesize names template style kind)).limit :=
    Nat.succ_le_succ hlength
  obtain ⟨decl, hsteps⟩ := steps_lexemes names template style kind
    (8 * (synthesize names template style kind).length + 60) hlimit rfl
    (rfl : (endOf .nothing 0 (lexemes names template style kind)).kind = .stop)
  rw [← htokens] at hsteps
  exact ⟨_, decl, parse_of_steps hsteps (Nat.le_trans (by decide : 2 ≤ 6) hlength), rfl⟩

/-! ## Lifting -/

/-- The text of a scaffold around the text of its entries. -/
theorem synthesize_around (names : Names) (template style : Text) (kind : EntityKind) :
    ∃ before after : Text, synthesize names template style kind =
        before ++ (texts (PlainEntry.listLexemes (plainEntries names template style kind)) ++
          after) ∧
      before.length = (atPlace kind).stop + kind.decoratorName.length + 1 + 4 := by
  refine ⟨texts (importLexemes kind) ++ "\n\n@" ++ kind.decoratorName ++ "(\x7b\n  ",
    "\n\x7d)" ++ texts (.newline :: classLexemes), ?_, ?_⟩
  · have hstart (ls : List Lexeme) : texts (.newline :: .newline :: .mark .at :: ls) =
        "\n\n@" ++ texts ls := rfl
    rw [← texts_lexemes, lexemes, texts_append, hstart, texts_append, texts_callLexemes,
      PlainEntry.texts_listLexemes]
    simp only [List.append_assoc]
  · simp only [List.length_append]
    rfl

theorem ofClass_classTree (file : Text) (kind : EntityKind) (pos : Nat) (es : List PlainEntry)
    (before after : Text) {start : Nat}
    (hstart : before.length = start + kind.decoratorName.length + 1 + 4) :
    TargetClass.ofClass file (before ++ (texts (PlainEntry.listLexemes es) ++ after)) kind
        (classTree pos (callTree start kind.decoratorName es)) =
      .ok
        { name := entityClassName
          decorator := kind.decoratorName
          metadata := Metadata.ofEntries (es.map PlainEntry.entry)
          properties := []
          constructorBody := []
          methods := [] } := by
  have hcall : [callTree start kind.decoratorName es].findSome? (callOf? kind.decoratorName) =
      some [objectTree (start + kind.decoratorName.length + 1) es] := by
    simp [callTree, callOf?]
  have hmetadata := PlainEntry.liftMetadata?_properties es before after
  rw [hstart] at hmetadata
  simp only [TargetClass.ofClass, classTree, Syntax.Class.decorators, hcall, objectTree, hmetadata]
  rfl

theorem importText_lexemes (names : Names) (template style : Text) (kind : EntityKind) :
    Text.slice (synthesize names template style kind) 0 (texts (importLexemes kind)).length =
      texts (importLexemes kind) := by
  rw [← texts_lexemes, lexemes, texts_append]
  simp [Text.slice]

def target (file : Text) (names : Names) (template style : Text) (kind : EntityKind) : Target where
  fileName := file
  kind := kind
  importTexts := [texts (importLexemes kind)]
  entity :=
    { name := entityClassName
      decorator := kind.decoratorName
      metadata := Metadata.ofEntries (entries names template style kind)
      properties := []
      constructorBody := []
      methods := [] }

/-- A scaffold is lifted to its import and its entries, if its selector needs no escapes. -/
theorem ofScaffold_synthesize {names : Names} (h : IsVerbatim names.selector)
    (file template style : Text) (kind : EntityKind) :
    Target.ofScaffold file (synthesize names template style kind) kind =
      .ok (target file names template style kind) := by
  obtain ⟨program, decl, hparse, hbody⟩ := parse_synthesize h template style kind
  obtain ⟨before, after, haround, hbefore⟩ := synthesize_around names template style kind
  have hclass := ofClass_classTree file kind (classStart names template style kind)
    (plainEntries names template style kind) before after hbefore
  rw [← haround, map_entry_plainEntries] at hclass
  have himport := importText_lexemes names template style kind
  have hentities : program.body.filterMap Target.entityClass? =
      [classTree (classStart names template style kind)
        (callTree (atPlace kind).stop kind.decoratorName
          (plainEntries names template style kind))] := by
    rw [hbody]
    rfl
  have himports : program.body.filterMap
        (Target.importText? (synthesize names template style kind)) =
      [texts (importLexemes kind)] := by
    rw [hbody]
    simp [Target.importText?, classStatement, Loc.text, importLength, himport]
  simp only [Target.ofScaffold, hparse, Target.ofStatements, hentities, himports, List.mapM_cons,
    List.mapM_nil, hclass]
  rfl

/-- No key is written twice. -/
theorem entries_ofEntries (names : Names) (template style : Text) (kind : EntityKind) :
    (Metadata.ofEntries (entries names template style kind)).entries =
      entries names template style kind := by
  cases kind <;> rfl

end Scaffold

/-- The scaffold of a file is lifted, whatever its sections are, if the identifier needs no
escapes. -/
theorem scaffoldTarget_of_isVerbatim {identifier : Text} (h : IsVerbatim identifier) (file : Text)
    (sections : Sections) :
    scaffoldTarget file identifier sections =
      .ok (Scaffold.target file (Names.ofIdentifier identifier) sections.template sections.style
        (EntityKind.ofTemplate sections.template)) := by
  unfold scaffoldTarget
  exact Scaffold.ofScaffold_synthesize ((Names.isVerbatim_selector_iff identifier).2 h) _ _ _ _

end NgFile
