import NgFile.Proofs.FoundValues

/-!
# What statements are made of

A statement is an expression, it declares variables or a function, it exports such a declaration,
or it is of a kind of its own.  A property of statements that is found in these parts, wherever
they are read, is found in every statement of a script.
-/

namespace NgFile

namespace Syntax

/-- Whether a statement is neither an expression nor declares variables or a function, and does
not export a declaration. -/
def Stmt.isPlain : Stmt → Bool
  | .expression _ _ | .variableDecl _ _ _ _ | .function _ _ _ | .exportDecl _ _ => false
  | _ => true

theorem Stmt.declared_of_isPlain {s : Stmt} (h : s.isPlain = true) : s.declared = s := by
  cases s with
  | exportDecl => cases h
  | _ => rfl

namespace Parser

/-! ## Statements of a kind of their own -/

/-- The productions of statements that are plain, all but those of names and a few tokens. -/
def plainProductions (self : Productions) (m : Mark) (decorators : List Expr)
    (isAbstract isDeclare : Bool) : List (Parser Stmt) :=
  [block self, ifStatement self, doStatement self, whileStatement self, forStatement self,
    withStatement self, switchStatement self, throwStatement self, tryStatement self,
    returnStatement self, jump .kwBreak .breakTo, jump .kwContinue .continueTo, importDeclaration,
    classDeclaration self m decorators isAbstract isDeclare, typeAlias self m isDeclare,
    interfaceDeclaration self m isDeclare, enumDeclaration self m isDeclare,
    moduleDeclaration self m isDeclare, exportAll m isDeclare, exportNames m isDeclare,
    exportDefault self m decorators]

abbrev YieldsPlain (p : Parser Stmt) : Prop :=
  Yields p fun s => s.isPlain = true

theorem yieldsPlain_of_mem (self : Productions) (m : Mark) (decorators : List Expr)
    (isAbstract isDeclare : Bool) :
    ∀ p ∈ plainProductions self m decorators isAbstract isDeclare, YieldsPlain p := by
  simp only [plainProductions, List.forall_mem_cons, List.not_mem_nil, false_implies,
    implies_true, and_true]
  -- Whatever such a production reads, each of its ways ends in a plain node.
  repeat' first
    | exact yields_pure rfl
    | exact yields_fail
    | refine yields_then fun _ => ?_
    | apply And.intro
    | split
    | dsimp only

theorem yieldsPlain_importEquals (m : Mark) (isType : Bool) (name : Name) :
    YieldsPlain (importEquals m isType name) := by
  refine yields_then fun _ => yields_then fun _ => yields_then fun _ => ?_
  split
  · exact yields_then fun _ => yields_then fun _ => yields_then fun _ => yields_then fun _ =>
      yields_then fun _ => yields_pure rfl
  · exact yields_then fun _ => yields_then fun _ => yields_then fun _ => yields_pure rfl

theorem yields_variableStatement_of {self : Productions} {P : Stmt → Prop}
    (h : ∀ loc kind isDeclare bindings, P (.variableDecl loc kind isDeclare bindings)) (m : Mark)
    (place : StatementPlace) (kind : VariableKind) (isDeclare : Bool) :
    Yields (variableStatement self m place kind isDeclare) P :=
  yields_then fun _ => yields_then fun _ => yields_then fun _ => yields_then fun _ =>
    yields_then fun _ => yields_then fun _ => yields_then fun _ => yields_pure (h _ _ _ _)

/-! ## Statements from their parts -/

structure FindsInParts (source : Text) (parts : Productions) (P : Stmt → Prop) : Prop where
  plain : ∀ s, s.isPlain = true → P s
  exported : ∀ loc d, P d → P (.exportDecl loc d)
  effectFree : ∀ s, P s → P s.asEffectFree
  bindings : ∀ m place kind isDeclare,
    Yields (variableStatement parts m place kind isDeclare) P
  /-- The mark of a function is where it begins, words in front of its keyword included. -/
  function : ∀ m place isDeclare, FindsBefore source (StandingFrom source m.start)
    (functionDeclaration parts m place isDeclare true) P
  expression : FindsBefore source (Standing source) (parts .expression) fun e =>
    ∀ loc, P (.expression loc e)
  assignment : FindsBefore source (Standing source) (parts (.assignment true)) fun e =>
    ∀ loc, P (.expression loc e)
  name : ∀ loc inner text, P (.expression loc (.ident inner text))

namespace FindsInParts

variable {source : Text} {start : Nat} {self : Productions} {P : Stmt → Prop} {p : Parser Stmt}

theorem of_yieldsPlain (h : FindsInParts source self P) (hp : YieldsPlain p) :
    FindsBefore source (StandingFrom source start) p P :=
  finds_of_yields fun c cur s after hrun => h.plain s (hp c cur s after hrun)

theorem of_mem (h : FindsInParts source self P) (m : Mark) (decorators : List Expr)
    (isAbstract isDeclare : Bool)
    (hp : p ∈ plainProductions self m decorators isAbstract isDeclare) :
    FindsBefore source (StandingFrom source start) p P :=
  h.of_yieldsPlain (yieldsPlain_of_mem self m decorators isAbstract isDeclare p hp)

theorem markedStatement (h : FindsInParts source self P) (_ : Keeps p)
    (hp : FindsBefore source (StandingFrom source start) p P) :
    FindsBefore source (StandingFrom source start) (markedStatement p) P := by
  refine finds_then fun token => finds_bind hp fun s hs => finds_pure ?_
  split
  · exact h.effectFree s hs
  · exact hs

theorem declaration (h : FindsInParts source self P) (m : Mark) (decorators : List Expr) :
    FindsBefore source (StandingFrom source m.start) (declaration self m decorators) P := by
  refine finds_then fun (isDeclare, isAbstract) => finds_then fun token =>
    finds_then fun second => finds_then fun _ => ?_
  split
  · split
    case h_1 | h_4 | h_5 | h_6 | h_7 | h_8 | h_9 =>
      exact h.of_mem m decorators isAbstract isDeclare (by simp [plainProductions])
    case h_2 => exact h.function m .listed isDeclare
    case h_3 => exact finds_then fun _ => h.function m .listed isDeclare
    case h_10 =>
      split
      · exact h.of_mem m decorators isAbstract isDeclare (by simp [plainProductions])
      · split
        · exact finds_of_yields (h.bindings m .listed _ isDeclare)
        · exact finds_fail
  · exact finds_fail

variable [∀ goal, Keeps (self goal)]

theorem exportedDeclaration (h : FindsInParts source self P) (m : Mark) (outer : List Expr) :
    FindsBefore source (StandingFrom source start) (exportedDeclaration self m outer) P := by
  refine finds_mark fun inner => finds_then fun decorators => finds_then fun _ => ?_
  refine finds_bind (finds_within (h.markedStatement inferInstance
    (h.declaration inner (outer ++ decorators)))) fun d hd => ?_
  exact finds_then fun loc => finds_pure (h.exported loc d hd)

theorem exportDeclaration (h : FindsInParts source self P) (outer : List Expr) :
    FindsBefore source (StandingFrom source start) (exportDeclaration self outer) P := by
  refine finds_then fun m => finds_then fun _ => finds_then fun token =>
    finds_then fun second => ?_
  have hplain {p : Parser Stmt} (isDeclare : Bool)
      (hp : p ∈ plainProductions self m outer false isDeclare) :
      FindsBefore source (StandingFrom source start) p P :=
    h.of_mem m outer false isDeclare hp
  split
  · exact hplain false (by simp [plainProductions])
  split
  · exact h.exportedDeclaration m outer
  split
  · exact hplain false (by simp [plainProductions])
  split
  · exact hplain false (by simp [plainProductions])
  split
  · exact h.of_yieldsPlain (yields_then fun _ => yields_then fun _ => yields_then fun _ =>
      yields_then fun _ => yields_pure rfl)
  split
  · exact h.of_yieldsPlain (yields_then fun _ => yields_then fun _ => yields_then fun _ =>
      yields_then fun _ => yields_then fun _ => yields_pure rfl)
  split
  · exact finds_then fun _ => hplain true (by simp [plainProductions])
  split
  · exact finds_then fun _ => hplain true (by simp [plainProductions])
  split
  · refine finds_then fun inner => finds_then fun _ => finds_then fun isType => ?_
    have hequals : FindsBefore source (StandingFrom source start) (do
        let name ← bindingName
        let d ← importEquals inner isType name
        pure (.exportDecl (← since m) d)) P :=
      finds_then fun name => finds_bind
        (h.of_yieldsPlain (yieldsPlain_importEquals inner isType name)) fun d hd =>
          finds_then fun loc => finds_pure (h.exported loc d hd)
    split
    · exact finds_then fun _ => hequals
    · exact hequals
  · exact h.exportedDeclaration m []

theorem expressionStatement (h : FindsInParts source self P) :
    FindsBefore source (StandingFrom source start) (expressionStatement self) P := by
  refine finds_then fun m => finds_bind (h.expression.narrow fun _ ht => ht.standing)
    fun e he => finds_then fun atColon => ?_
  split
  · exact h.of_yieldsPlain (yields_then fun _ => yields_then fun _ => yields_then fun _ =>
      yields_pure rfl)
  · exact finds_then fun _ => finds_then fun loc => finds_pure (he loc)

theorem letStatement (h : FindsInParts source self P) (place : StatementPlace) :
    FindsBefore source (StandingFrom source start) (letStatement self place) P := by
  refine finds_then fun m => finds_then fun next => finds_then fun tokens => ?_
  extract_lets isOperand
  split
  · exact finds_bind (h.assignment.narrow fun _ ht => ht.standing) fun e he =>
      finds_then fun _ => finds_then fun loc => finds_pure (he loc)
  split
  · exact finds_bind (h.expression.narrow fun _ ht => ht.standing) fun e he =>
      finds_then fun _ => finds_then fun loc => finds_pure (he loc)
  split
  · exact finds_then fun _ => finds_then fun _ => finds_then fun loc =>
      finds_pure (h.name loc _ _)
  · exact finds_of_yields (h.bindings m place .let false)

theorem decoratedStatement (h : FindsInParts source self P) (place : StatementPlace) :
    FindsBefore source (StandingFrom source start) (decoratedStatement self place) P := by
  refine finds_mark fun m => finds_then fun decorators => finds_then fun isExport => ?_
  split
  · exact h.exportDeclaration decorators
  · exact finds_then fun _ => h.declaration m decorators

theorem keywordStatement (h : FindsInParts source self P) (place : StatementPlace)
    (k : Keyword) :
    FindsBefore source (StandingFrom source start) (keywordStatement self place k) P := by
  refine finds_mark fun m => finds_then fun next => ?_
  have hplain {p : Parser Stmt} (hp : p ∈ plainProductions self m [] false false) :
      FindsBefore source (StandingFrom source m.start) p P :=
    h.of_mem m [] false false hp
  split
  case h_1 | h_2 | h_3 | h_4 | h_5 | h_6 | h_7 | h_8 | h_9 | h_10 | h_11 =>
    exact hplain (by simp [plainProductions])
  case h_12 =>
    exact h.of_yieldsPlain (yields_then fun _ => yields_then fun _ => yields_then fun _ =>
      yields_pure rfl)
  case h_13 => exact h.exportDeclaration []
  case h_14 =>
    split
    · exact h.expressionStatement
    · exact hplain (by simp [plainProductions])
  case h_15 => exact finds_then fun _ => hplain (by simp [plainProductions])
  case h_16 => exact h.function m place false
  case h_17 =>
    split
    · exact h.function m place false
    · exact h.expressionStatement
  case h_18 => exact finds_of_yields (h.bindings m place .var false)
  case h_19 =>
    split
    · exact hplain (by simp [plainProductions])
    · exact finds_of_yields (h.bindings m place .const false)
  case h_20 =>
    refine finds_then fun token => ?_
    split
    · exact h.expressionStatement
    · exact h.letStatement place
  case h_21 | h_22 =>
    refine finds_then fun kind => ?_
    split
    · exact finds_of_yields (h.bindings m place _ false)
    · exact h.expressionStatement
  case h_23 =>
    refine finds_then fun tokens => ?_
    split
    · exact finds_within (h.declaration m [])
    · exact h.expressionStatement

theorem statement (h : FindsInParts source self P) (place : StatementPlace) :
    FindsBefore source (StandingFrom source start) (statement self place) P := by
  refine h.markedStatement ?_ ?_
  · refine .bind fun _ => .bind fun _ => ?_
    split <;> infer_instance
  · refine finds_then fun m => finds_then fun token => ?_
    split
    · exact h.of_mem m [] false false (by simp [plainProductions])
    · exact h.of_yieldsPlain (yields_then fun _ => yields_then fun _ => yields_pure rfl)
    · exact h.decoratedStatement place
    · exact h.keywordStatement place _
    · exact h.expressionStatement

end FindsInParts

/-! ## Whole scripts -/

section Scripts

variable {source : Text} {P : Stmt → Prop}

theorem finds_productions_statement (h : ∀ fuel, FindsInParts source (productions fuel) P)
    {start : Nat} (fuel : Nat) (place : StatementPlace) :
    FindsBefore source (StandingFrom source start) (productions fuel (.statement place)) P := by
  cases fuel with
  | zero => exact finds_fail
  | succ fuel => exact (h fuel).statement place

/-- What is left behind the directives is a part of the statements. -/
theorem splitDirectives_snd_suffix (source : Text) (ss : List Stmt) :
    (splitDirectives source ss).2 <:+ ss := by
  induction ss with
  | nil => exact List.suffix_rfl
  | cons s ss ih =>
      unfold splitDirectives
      split
      · exact ih.trans (List.suffix_cons s ss)
      · exact List.suffix_rfl

theorem finds_program {self : Productions} [∀ goal, Keeps (self goal)] {start : Nat}
    (h : FindsBefore source (StandingFrom source start) (self (.statement .listed)) P) :
    FindsBefore source (StandingFrom source start) (program self) fun p =>
      ∀ s ∈ p.body, P s := by
  have hstatements : FindsBefore source (StandingFrom source start) (topStatements self)
      fun ss => ∀ s ∈ ss, P s := by
    refine finds_many (finds_then fun token => ?_)
    split
    · exact finds_none
    · exact finds_bind h fun s hs => finds_pure (by simpa using hs)
  refine finds_bind hstatements fun ss hss => finds_of_yields ?_
  refine yields_then fun token => yields_then fun _ => yields_then fun c =>
    yields_pure fun s hs => ?_
  exact hss s ((splitDirectives_snd_suffix c.source ss).mem hs)

end Scripts

end Parser

/-- What is found in the parts of statements holds of every statement of a script. -/
theorem Program.forall_of_parse {source : Text} {P : Stmt → Prop}
    (h : ∀ fuel, Parser.FindsInParts source (Parser.productions fuel) P) {program : Program}
    (hparse : Program.parse source = .ok program) : ∀ s ∈ program.body, P s := by
  unfold Program.parse Parser.run at hparse
  split at hparse
  · rename_i hrun
    cases hparse
    exact Parser.finds_program (Parser.finds_productions_statement h _ .listed) _ _ _ _ hrun rfl
      ⟨standing_tokens source, inOrder_tokens source⟩
  · cases hparse

/-! ## What statements bind -/

theorem Stmt.isComplete_of_isPlain {s : Stmt} (h : s.isPlain = true) : s.IsComplete := by
  have hbinds : s.Binds := by
    cases s with
    | variableDecl | function => cases h
    | _ => trivial
  refine ⟨hbinds, ?_⟩
  rw [declared_of_isPlain h]
  exact hbinds

theorem Parser.findsInParts_isComplete (source : Text) (fuel : Nat) :
    FindsInParts source (productions fuel) Stmt.IsComplete where
  plain _ := Stmt.isComplete_of_isPlain
  exported _ _ hd := ⟨trivial, hd.1⟩
  effectFree _ := Stmt.IsComplete.asEffectFree
  bindings := yields_variableStatement (yields_productions_pattern fuel)
  function m place isDeclare := finds_of_yields (yields_functionDeclaration m place isDeclare)
  expression := finds_of_yields fun _ _ _ _ _ _ => ⟨trivial, trivial⟩
  assignment := finds_of_yields fun _ _ _ _ _ _ => ⟨trivial, trivial⟩
  name _ _ _ := ⟨trivial, trivial⟩

/-- Every statement of a script binds what it declares. -/
theorem Program.isComplete_of_parse {source : Text} {p : Program}
    (h : Program.parse source = .ok p) : ∀ s ∈ p.body, s.IsComplete :=
  forall_of_parse (Parser.findsInParts_isComplete source) h

end Syntax

end NgFile
