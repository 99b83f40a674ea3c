import NgFile.Proofs.PhraseReading

/-!
# Reading functions and statements

The bodies of arrow functions hold statements, and statements hold assignments.  In the body of
a function each form of a statement is read as far as it goes: a closed one up to its semicolon
or brace, an open one up to a brace or the next line.
-/

namespace NgFile

namespace Syntax

namespace Parser

open Lexeme

section Reading

variable {n : Nat} {c : Context} {m : Mark} {ts us behind : List Token}

/-- A place for statements of a function: they may return, and functions have code. -/
structure InBody (c : Context) : Prop where
  inFunction : c.inFunction = true
  inAmbient : c.inAmbient = false

def ReadsArrowBody (ts : List Token) : Prop :=
  ∀ (n : Nat) (c : Context) (head : ArrowHead) (returnTypes : Bool) (behind : List Token),
    2 * ts.length < n → ts.length < c.limit → Heads EndsOperand behind →
      Takes (arrowBody (productions n) head returnTypes) c ts behind fun _ => True

def braceStep (self : Productions) : Parser (Option Stmt) := do
  if ← atPunct .braceClose then pure none
  else if (← peek).kind == .stop then fail
  else pure (some (← self (.statement .listed)))

theorem statementsToBrace_eq (self : Productions) :
    statementsToBrace self = many (braceStep self) := rfl

/-- What comes behind a statement, and behind its end: a semicolon, or nothing on that line. -/
inductive EndsStatement : List Token → List Token → Prop
  | semicolon (place : Place) (behind : List Token) :
      EndsStatement [plainToken (.punct .semicolon) place] behind
  | brace (place : Place) (behind : List Token) :
      EndsStatement [] (plainToken (.punct .braceClose) place :: behind)
  | newline {kind : TokenKind} {place : Place} (hkind : BeginsLine kind)
      (hgap : place.gap = .newline) (behind : List Token) :
      EndsStatement [] (plainToken kind place :: behind)

def ReadsOpen (ts : List Token) : Prop :=
  ∀ (n : Nat) (c : Context) (ends behind : List Token), 2 * ts.length + 2 ≤ n →
    ts.length < c.limit → InBody c → EndsStatement ends behind →
      Takes (statement (productions n) .listed) c (ts ++ ends) behind fun _ => True

def ReadsClosed (ts : List Token) : Prop :=
  ∀ (n : Nat) (c : Context) (behind : List Token), 2 * ts.length + 2 ≤ n →
    ts.length < c.limit → InBody c →
      Takes (statement (productions n) .listed) c ts behind fun _ => True

def ReadsStatements (ts : List Token) : Prop :=
  ∀ (n : Nat) (c : Context) (closing : Place) (rest : List Token), 2 * ts.length + 3 ≤ n →
    ts.length < c.limit → InBody c → ∀ stop defaults spreads, ∃ ss stop',
      Steps (braceStep (productions n)) c
        ⟨ts ++ plainToken (.punct .braceClose) closing :: rest, stop, defaults, spreads⟩ ss
        ⟨plainToken (.punct .braceClose) closing :: rest, stop', defaults, spreads⟩ ∧
      ss.length ≤ ts.length

/-! ## Parameters -/

inductive EndsParam : Punct → Prop
  | comma : EndsParam .comma
  | parenClose : EndsParam .parenClose

theorem takes_param {p : Punct} (hp : EndsParam p) (role : FunctionRole) (text : Text)
    (place after : Place) (rest : List Token) (hlimit : 0 < c.limit) (stop : Nat)
    (defaults spreads : List Nat) :
    param (productions (n + 1)) role c
        ⟨plainToken (.name text) place :: plainToken (.punct p) after :: rest, stop, defaults,
          spreads⟩ =
      .ok (.mk ⟨place.start, place.stop, []⟩ [] .none (.name ⟨⟨place.start, place.stop, []⟩, text⟩)
          false none none,
        ⟨plainToken (.punct p) after :: rest, place.stop, defaults, spreads⟩) := by
  obtain ⟨k, hk⟩ := Nat.exists_eq_add_of_lt hlimit
  obtain ⟨source, limit, allowIn, inAwait, inYield, inFunction, inDecorator, inAmbient,
    allowConditional⟩ := c
  cases hk
  cases hp <;> cases role <;> rfl

theorem items_params (hparams : Params ts) (hne : ts ≠ []) (role : FunctionRole)
    (closing : Place) (rest : List Token) (hlimit : 0 < c.limit) (stop : Nat)
    (defaults spreads : List Nat) :
    ∃ bs stop', Items .parenClose (param (productions (n + 1)) role) c
        ⟨ts ++ plainToken (.punct .parenClose) closing :: rest, stop, defaults, spreads⟩ bs
        ⟨plainToken (.punct .parenClose) closing :: rest, stop', defaults, spreads⟩ ∧
      bs.length ≤ ts.length ∧ ∀ b ∈ bs, b.isThis = false := by
  induction hparams generalizing stop with
  | none => exact absurd rfl hne
  | @last text place hthis =>
      have hfirst := takes_param (n := n) .parenClose role text place closing rest hlimit stop
        defaults spreads
      exact ⟨_, _, .last (atPunct_miss (by simp)) hfirst, Nat.le_refl _,
        by simpa [Binding.isThis] using hthis⟩
  | @more text place comma t ts hthis hmore ih =>
      have hfirst := takes_param (n := n) .comma role text place comma
        (t :: ts ++ plainToken (.punct .parenClose) closing :: rest) hlimit stop defaults spreads
      obtain ⟨bs, stop', hitems, hlength, hany⟩ := ih (List.cons_ne_nil _ _) comma.stop
      refine ⟨_, _, .more (atPunct_miss (by simp)) hfirst hitems, ?_, ?_⟩
      · simp only [List.length_cons] at hlength ⊢
        omega
      · refine List.forall_mem_cons.2 ⟨?_, hany⟩
        simpa [Binding.isThis] using hthis

/-- What stands between the parentheses of parameters is no parameter for `this`. -/
theorem thisParam_none (hparams : Params ts) (self : Productions) (c : Context) (closing : Place)
    (rest : List Token) (stop : Nat) (defaults spreads : List Nat) :
    thisParam self c
        ⟨ts ++ plainToken (.punct .parenClose) closing :: rest, stop, defaults, spreads⟩ =
      .ok (none,
        ⟨ts ++ plainToken (.punct .parenClose) closing :: rest, stop, defaults, spreads⟩) := by
  cases hparams <;> rfl

/-- Parameters in parentheses, none of them for `this`. -/
theorem takes_params (hparams : Params ts) (role : FunctionRole) (opening closing : Place)
    (behind : List Token) (hfuel : 0 < n) (hlimit : ts.length < c.limit) :
    Takes (params (productions n) role) c
      (plainToken (.punct .parenOpen) opening :: (ts ++ [plainToken (.punct .parenClose) closing]))
      behind fun result => ∀ b ∈ result.2, b.isThis = false := by
  intro stop defaults spreads
  obtain ⟨n, rfl⟩ : ∃ k, n = k + 1 := ⟨n - 1, by omega⟩
  have hthis := thisParam_none hparams (productions (n + 1)) c closing behind opening.stop defaults
    spreads
  obtain ⟨bs, stop', hlist, hany⟩ : ∃ bs stop', commaList .parenClose
        (param (productions (n + 1)) role) c
        ⟨ts ++ plainToken (.punct .parenClose) closing :: behind, opening.stop, defaults,
          spreads⟩ =
      .ok ((bs, false), ⟨plainToken (.punct .parenClose) closing :: behind, stop', defaults,
        spreads⟩) ∧ ∀ b ∈ bs, b.isThis = false := by
    by_cases hne : ts = []
    · subst hne
      exact ⟨_, _, commaList_nil _ _ closing behind hlimit opening.stop defaults spreads, by simp⟩
    · have hpositive : 0 < c.limit := by omega
      obtain ⟨bs, stop', hitems, hlength, hany⟩ := items_params hparams hne role closing behind
        hpositive opening.stop defaults spreads
      exact ⟨bs, stop', commaList_of_items (by decide) hitems (by omega), hany⟩
  refine ⟨(⟨opening.start, closing.stop, []⟩, bs), closing.stop, ?_, hany⟩
  simp [params, bind_apply, mark_cons, expect_hit, hthis, require, hlist, since, pure_apply]

/-! ## Statements in braces -/

theorem takes_bracedStatements (h : ReadsStatements ts) (opening closing : Place)
    (behind : List Token) (hfuel : 2 * ts.length + 3 ≤ n) (hlimit : ts.length < c.limit)
    (hc : InBody c) :
    Takes (bracedStatements (productions n)) c
      (plainToken (.punct .braceOpen) opening :: (ts ++ [plainToken (.punct .braceClose) closing]))
      behind fun _ => True := by
  intro stop defaults spreads
  obtain ⟨ss, stop', hsteps, hlength⟩ :=
    h n c closing behind hfuel hlimit hc opening.stop defaults spreads
  have hmany := many_of_steps hsteps (Nat.lt_of_le_of_lt hlength hlimit)
  refine ⟨(ss, []), closing.stop, ?_, trivial⟩
  simp [bracedStatements, bind_apply, expect_hit, statementsToBrace_eq, hmany, peek_cons,
    pure_apply]

/-! ## Arrow functions -/

theorem readsArrowBody_concise {t : Token} (hbrace : t.kind ≠ .punct .braceOpen)
    (hbegins : Heads BeginsAssignment (t :: ts)) (h : ReadsAssignment (t :: ts)) :
    ReadsArrowBody (t :: ts) := by
  intro n c head returnTypes behind hfuel hlimit hends stop defaults spreads
  obtain ⟨n, rfl⟩ : ∃ k, n = k + 1 := ⟨n - 1, by omega⟩
  obtain ⟨kind, place, rest, hcons, -⟩ := hbegins
  obtain ⟨rfl, rfl⟩ := List.cons.inj hcons
  obtain ⟨e, stop', hvalue, -⟩ := h n { c with inAwait := head.isAsync, inYield := false }
    returnTypes behind (by omega) hlimit hends stop defaults spreads
  have hself : productions (n + 1) (.assignment returnTypes) =
      assignment (productions n) returnTypes := rfl
  have hkind : kind ≠ .punct .braceOpen := hbrace
  rw [List.cons_append] at hvalue ⊢
  simp only [arrowBody, bind_apply, atPunct_miss hkind, within_apply, hself, hvalue, since,
    Bool.false_eq_true, if_false, pure_apply]
  exact ⟨_, _, rfl, trivial⟩

theorem readsArrowBody_block {opening closing : Place} (h : ReadsStatements ts) :
    ReadsArrowBody (plainToken (.punct .braceOpen) opening ::
      (ts ++ [plainToken (.punct .braceClose) closing])) := by
  intro n c head returnTypes behind hfuel hlimit hends stop defaults spreads
  simp only [List.length_cons, List.length_append, List.length_nil] at hfuel hlimit
  have hlimit' : ts.length < c.limit := by omega
  obtain ⟨⟨ss, comments⟩, stop', hbody, -⟩ := takes_bracedStatements
    (c := { inFunction head.isAsync false c with allowIn := c.allowIn, inAmbient := false })
    h opening closing behind (by omega : _ ≤ n) hlimit' ⟨rfl, rfl⟩ stop defaults spreads
  rw [List.cons_append] at hbody ⊢
  simp only [arrowBody, bind_apply, atPunct_hit, if_true, within_apply, hbody, context, since,
    pure_apply]
  exact ⟨_, _, rfl, trivial⟩

theorem takes_arrowHead (hparams : Params ts) (opening closing arrow : Place)
    (hgap : arrow.gap ≠ .newline) (behind : List Token) (hfuel : 0 < n)
    (hlimit : ts.length < c.limit) :
    Takes (arrowHead (productions n)) c
      (plainToken (.punct .parenOpen) opening ::
        (ts ++ [plainToken (.punct .parenClose) closing, plainToken (.punct .arrow) arrow]))
      behind fun head => head.returnType = none := by
  intro stop defaults spreads
  obtain ⟨⟨loc, bs⟩, stop', hrun, hthis⟩ := takes_params hparams .standalone opening closing
    (plainToken (.punct .arrow) arrow :: behind) hfuel hlimit stop defaults spreads
  have hasync (rest : List Token) : eatWord .kwAsync c
      ⟨plainToken (.punct .parenOpen) opening :: rest, stop, defaults, spreads⟩ =
      .ok (false, ⟨plainToken (.punct .parenOpen) opening :: rest, stop, defaults, spreads⟩) := rfl
  refine ⟨⟨⟨opening.start, []⟩, false, [], loc, bs, none⟩, arrow.stop, ?_, rfl⟩
  simp only [List.cons_append, List.append_assoc, List.nil_append] at hrun ⊢
  simp [arrowHead, bind_apply, mark_cons, hasync, within_apply, typeParams, eat_miss, pure_apply,
    hrun, returnAnnotation, require, if_pos hthis, atNewline, peek_cons, hgap, expect_hit]

/-- An arrow function with a bare parameter. -/
theorem readsAssignment_bareArrow {text : Text} {place arrow : Place}
    (hgap : arrow.gap ≠ .newline) (h : ReadsArrowBody ts) :
    ReadsAssignment (plainToken (.name text) place :: plainToken (.punct .arrow) arrow :: ts) := by
  intro n c returnTypes behind hfuel hlimit hends stop defaults spreads
  simp only [List.length_cons] at hfuel hlimit
  let loc : Loc := ⟨place.start, place.stop, []⟩
  obtain ⟨e, stop', hbody, -⟩ := h n c
    ⟨⟨place.start, []⟩, false, [], loc, [.mk loc [] .none (.name ⟨loc, text⟩) false none none],
      none⟩
    returnTypes behind (by omega) (by omega) hends arrow.stop defaults spreads
  have hpositive : 0 < c.limit := by omega
  have harrow : At EndsOperators ⟨plainToken (.punct .arrow) arrow :: (ts ++ behind), place.stop,
      defaults, spreads⟩ := ⟨_, _, _, rfl, .arrow⟩
  have hbegins : At BeginsOperand ⟨plainToken (.name text) place ::
      plainToken (.punct .arrow) arrow :: (ts ++ behind), stop, defaults, spreads⟩ :=
    ⟨_, _, _, rfl, .name text⟩
  refine ⟨e, stop', assignment_of_binary hbegins (binary_of_leftHandSide hbegins
    (leftHandSide_of_primary (primary_name text) harrow.links hpositive) harrow hpositive _)
    (mark_cons _) ?_, trivial⟩
  simp [assignmentRest, bind_apply, atPunct_hit, bareArrow, require, atNewline, peek_cons, hgap,
    expect_hit, pure_apply]
  exact hbody

/-- Parameters in parentheses begin an arrow function, or may begin one. -/
theorem guessArrow_params (hparams : Params ts) (opening closing arrow : Place)
    (rest : List Token) :
    guessArrow (plainToken (.punct .parenOpen) opening :: (ts ++
        plainToken (.punct .parenClose) closing :: plainToken (.punct .arrow) arrow :: rest)) ≠
      .no := by
  cases hparams with
  | none => exact fun h => by cases h
  | last => exact fun h => by cases h
  | more => exact fun h => by cases h

theorem takes_possibleArrow {us : List Token} (hparams : Params ts) (opening closing arrow : Place)
    (hgap : arrow.gap ≠ .newline) (h : ReadsArrowBody us) (returnTypes : Bool)
    (hfuel : 2 * (ts.length + us.length) < n) (hlimit : ts.length + us.length < c.limit)
    (hends : Heads EndsOperand behind) :
    Takes (possibleArrow (productions n) returnTypes) c
      (plainToken (.punct .parenOpen) opening :: (ts ++ plainToken (.punct .parenClose) closing ::
        plainToken (.punct .arrow) arrow :: us)) behind fun result => result.isSome = true := by
  intro stop defaults spreads
  obtain ⟨head, stop₁, hhead, htype⟩ := takes_arrowHead hparams opening closing arrow hgap
    (us ++ behind) (by omega : 0 < n) (by omega : _ < c.limit) stop defaults spreads
  have hguess := guessArrow_params hparams opening closing arrow (us ++ behind)
  simp only [List.cons_append, List.append_assoc, List.nil_append] at hhead ⊢
  cases hfound : guessArrow (plainToken (.punct .parenOpen) opening :: (ts ++
      plainToken (.punct .parenClose) closing :: plainToken (.punct .arrow) arrow ::
        (us ++ behind))) with
  | no => exact absurd hfound hguess
  | yes =>
      obtain ⟨e, stop₂, hbody, -⟩ := h n c head true behind (by omega) (by omega) hends stop₁
        defaults spreads
      refine ⟨some e, stop₂, ?_, rfl⟩
      simp [possibleArrow, bind_apply, peekAll, hfound, hhead, hbody, pure_apply]
  | unsure =>
      obtain ⟨e, stop₂, hbody, -⟩ := h n c head returnTypes behind (by omega) (by omega) hends stop₁
        defaults spreads
      refine ⟨some e, stop₂, ?_, rfl⟩
      simp [possibleArrow, bind_apply, peekAll, hfound, attempt, hhead, htype, require, hbody,
        pure_apply]

/-- An arrow function with parameters in parentheses. -/
theorem readsAssignment_arrow {opening closing arrow : Place} {us : List Token}
    (hparams : Params ts) (hgap : arrow.gap ≠ .newline) (h : ReadsArrowBody us) :
    ReadsAssignment (plainToken (.punct .parenOpen) opening ::
      (ts ++ plainToken (.punct .parenClose) closing ::
        plainToken (.punct .arrow) arrow :: us)) := by
  intro n c returnTypes behind hfuel hlimit hends stop defaults spreads
  simp only [List.length_cons, List.length_append] at hfuel hlimit
  obtain ⟨result, stop', hrun, hsome⟩ := takes_possibleArrow hparams opening closing arrow hgap h
    returnTypes (by omega : _ < n) (by omega : _ < c.limit) hends stop defaults spreads
  obtain ⟨e, rfl⟩ := Option.isSome_iff_exists.1 hsome
  refine ⟨e, stop', ?_, trivial⟩
  rw [List.cons_append] at hrun ⊢
  generalize ts ++ _ ++ behind = rest at hrun ⊢
  obtain ⟨b, hword⟩ := atOperandWord_ok c
    ⟨plainToken (.punct .parenOpen) opening :: rest, stop, defaults, spreads⟩
  have hyield : isWord .kwYield (plainToken (.punct .parenOpen) opening) = false := rfl
  simp [assignment, unmarkedAssignment_eq, bind_apply, mark_cons, peek_cons, context, hyield, hword,
    hrun, pure_apply]

/-! ## The end of a statement -/

theorem EndsStatement.endsOperand {ends : List Token} (h : EndsStatement ends behind) :
    Heads EndsOperand (ends ++ behind) := by
  cases h with
  | semicolon => exact ⟨_, _, _, rfl, .semicolon⟩
  | brace => exact ⟨_, _, _, rfl, .braceClose⟩
  | newline hkind => exact ⟨_, _, _, rfl, hkind.endsOperand⟩

/-- Neither a comma nor a colon ends a statement. -/
theorem EndsStatement.atPunct {ends : List Token} (h : EndsStatement ends behind) {p : Punct}
    (hsemicolon : p ≠ .semicolon) (hbrace : p ≠ .braceClose) (c : Context) (stop : Nat)
    (defaults spreads : List Nat) :
    atPunct p c ⟨ends ++ behind, stop, defaults, spreads⟩ =
      .ok (false, ⟨ends ++ behind, stop, defaults, spreads⟩) := by
  cases h with
  | semicolon => exact atPunct_miss fun h => hsemicolon (TokenKind.punct.inj h).symm
  | brace => exact atPunct_miss fun h => hbrace (TokenKind.punct.inj h).symm
  | newline hkind =>
      refine atPunct_miss ?_
      rintro rfl
      cases hkind with
      | expression h => cases h

theorem semicolon_ends {ends : List Token} (h : EndsStatement ends behind) (c : Context)
    (stop : Nat) (defaults spreads : List Nat) :
    ∃ stop', semicolon c ⟨ends ++ behind, stop, defaults, spreads⟩ =
      .ok ((), ⟨behind, stop', defaults, spreads⟩) := by
  cases h with
  | semicolon place => exact ⟨place.stop, rfl⟩
  | brace place rest => exact ⟨stop, by cases rest <;> rfl⟩
  | @newline kind place hkind hgap =>
      have hpunct (p : Punct) : kind ≠ .punct p := by
        rintro rfl
        cases hkind with
        | expression h => cases h
      refine ⟨stop, ?_⟩
      simp [semicolon, bind_apply, eat_miss, hpunct, atStatementEnd, peek_cons, hgap, pure_apply]

theorem takes_expression {ends : List Token} (h : ReadsAssignment ts)
    (hends : EndsStatement ends behind) (hfuel : 2 * ts.length + 1 ≤ n)
    (hlimit : ts.length < c.limit) :
    Takes (expression (productions n)) c ts (ends ++ behind) fun _ => True := by
  intro stop defaults spreads
  obtain ⟨n, rfl⟩ : ∃ k, n = k + 1 := ⟨n - 1, by omega⟩
  obtain ⟨e, stop', hvalue, -⟩ :=
    h n c true (ends ++ behind) (by omega) hlimit hends.endsOperand stop defaults spreads
  obtain ⟨m, hm⟩ := mark_ok c ⟨ts ++ (ends ++ behind), stop, defaults, spreads⟩
  have hself : productions (n + 1) (.assignment true) = assignment (productions n) true := rfl
  have hcomma := hends.atPunct (p := .comma) (by decide) (by decide) c stop' defaults spreads
  exact ⟨e, stop', by simp [expression, bind_apply, hm, hself, hvalue, hcomma, pure_apply], trivial⟩

/-! ## Statements -/

section Run

variable {self : Productions} {place : Place} {rest : List Token} {stop : Nat}
variable {defaults spreads : List Nat} {s : Stmt} {after : Cursor}

theorem statement_of_keyword {k : Keyword}
    (h : keywordStatement self .listed k c
      ⟨plainToken (.keyword k false) place :: rest, stop, defaults, spreads⟩ = .ok (s, after)) :
    statement self .listed c ⟨plainToken (.keyword k false) place :: rest, stop, defaults,
      spreads⟩ = .ok (s, after) := by
  simp [statement, markedStatement, bind_apply, peek_cons, mark_cons, h, pure_apply]

theorem statement_of_expression {kind : TokenKind} (hkind : BeginsStatement kind)
    (h : expressionStatement self c ⟨plainToken kind place :: rest, stop, defaults, spreads⟩ =
      .ok (s, after)) :
    statement self .listed c ⟨plainToken kind place :: rest, stop, defaults, spreads⟩ =
      .ok (s, after) := by
  cases hkind with
  | name text => simp [statement, markedStatement, bind_apply, peek_cons, mark_cons, h, pure_apply]
  | this =>
      refine statement_of_keyword ?_
      rw [← h]
      cases rest <;> rfl

end Run

theorem takes_expressionStatement {kind : TokenKind} {place : Place} {ends : List Token}
    (hbegins : BeginsStatement kind) (h : ReadsAssignment (plainToken kind place :: ts))
    (hends : EndsStatement ends behind) (hfuel : 2 * ts.length + 4 ≤ n)
    (hlimit : ts.length + 1 < c.limit) :
    Takes (statement (productions n) .listed) c (plainToken kind place :: (ts ++ ends)) behind
      fun _ => True := by
  intro stop defaults spreads
  obtain ⟨n, rfl⟩ : ∃ k, n = k + 1 := ⟨n - 1, by omega⟩
  obtain ⟨e, stop₁, hvalue, -⟩ := takes_expression (n := n) h hends
    (by rw [List.length_cons]; omega) (by rwa [List.length_cons]) stop defaults spreads
  obtain ⟨stop₂, hsemicolon⟩ := semicolon_ends hends c stop₁ defaults spreads
  have hself : productions (n + 1) .expression = expression (productions n) := rfl
  have hcolon := hends.atPunct (p := .colon) (by decide) (by decide) c stop₁ defaults spreads
  refine ⟨.expression ⟨place.start, stop₂, []⟩ e, stop₂, ?_, trivial⟩
  rw [List.cons_append] at hvalue
  rw [List.cons_append, List.append_assoc]
  refine statement_of_expression hbegins ?_
  simp [expressionStatement, bind_apply, mark_cons, hself, hvalue, hcolon, hsemicolon, since,
    pure_apply]

theorem readsOpen_expression {kind : TokenKind} {place : Place} (hbegins : BeginsStatement kind)
    (h : ReadsAssignment (plainToken kind place :: ts)) :
    ReadsOpen (plainToken kind place :: ts) := by
  intro n c ends behind hfuel hlimit _ hends
  rw [List.length_cons] at hfuel hlimit
  exact takes_expressionStatement hbegins h hends (by omega) hlimit

def declaratorStep (self : Productions) : Parser (Option Binding) := do
  if ← eat .comma then pure (some (← declarator self)) else pure none

theorem declarators_eq (self : Productions) :
    declarators self = (do
      let first ← declarator self
      let more ← many (declaratorStep self)
      pure (first :: more)) := rfl

/-- The name of a variable with its value. -/
theorem takes_declarators {ends : List Token} (h : ReadsAssignment ts)
    (hends : EndsStatement ends behind) (text : Text) (name equal : Place)
    (hfuel : 2 * ts.length + 1 ≤ n) (hlimit : ts.length < c.limit) :
    Takes (declarators (productions n)) c
      (plainToken (.name text) name :: plainToken (.punct .equal) equal :: ts) (ends ++ behind)
      fun bs => ∀ kind isAmbient, ∀ b ∈ bs,
        hasNeededValue kind isAmbient b = true ∧ allowsPattern kind b = true := by
  intro stop defaults spreads
  obtain ⟨n, rfl⟩ : ∃ k, n = k + 1 := ⟨n - 1, by omega⟩
  obtain ⟨e, stop', hvalue, -⟩ :=
    h n c true (ends ++ behind) (by omega) hlimit hends.endsOperand equal.stop defaults spreads
  have hself : productions (n + 1) (.assignment true) = assignment (productions n) true := rfl
  have hpattern (rest : List Token) : productions (n + 1) .pattern c
        ⟨plainToken (.name text) name :: rest, stop, defaults, spreads⟩ =
      .ok (.name ⟨⟨name.start, name.stop, []⟩, text⟩, ⟨rest, name.stop, defaults, spreads⟩) := rfl
  have hbang : isPunct .bang (plainToken (.punct .equal) equal) = false := rfl
  have hcomma := hends.atPunct (p := .comma) (by decide) (by decide) c stop' defaults spreads
  have hfirst : declarator (productions (n + 1)) c
        ⟨plainToken (.name text) name :: plainToken (.punct .equal) equal ::
          (ts ++ (ends ++ behind)), stop, defaults, spreads⟩ =
      .ok (.mk ⟨name.start, stop', []⟩ [] .none (.name ⟨⟨name.start, name.stop, []⟩, text⟩) false
          none (some e),
        ⟨ends ++ behind, stop', defaults, spreads⟩) := by
    simp [declarator, bind_apply, mark_cons, hpattern, peek_cons, hbang, typeAnnotation, eat_miss,
      eat_hit, hself, hvalue, since, pure_apply]
  have hmore : declaratorStep (productions (n + 1)) c ⟨ends ++ behind, stop', defaults, spreads⟩ =
      .ok (none, ⟨ends ++ behind, stop', defaults, spreads⟩) := by
    simp [declaratorStep, eat, bind_apply, hcomma, pure_apply]
  have hmany := many_of_steps (.done hmore) (Nat.lt_of_le_of_lt (Nat.zero_le _) hlimit)
  refine ⟨[.mk ⟨name.start, stop', []⟩ [] .none (.name ⟨⟨name.start, name.stop, []⟩, text⟩) false
    none (some e)], stop', ?_, ?_⟩
  rotate_left
  · intro kind isAmbient b hb
    rw [List.mem_singleton.1 hb]
    exact ⟨rfl, rfl⟩
  rw [List.cons_append, List.cons_append]
  simp only [declarators_eq, bind_apply, hfirst, hmany, pure_apply]

theorem variableStatement_word {ends : List Token} {k : Keyword} {kind : VariableKind}
    (hkind : kind ≠ .awaitUsing) (h : ReadsAssignment ts)
    (hends : EndsStatement ends behind) (m : Mark) (text : Text) (place name equal : Place)
    (hfuel : 2 * ts.length + 1 ≤ n) (hlimit : ts.length < c.limit) :
    Takes (variableStatement (productions n) m .listed kind false) c
      (plainToken (.keyword k false) place :: plainToken (.name text) name ::
        plainToken (.punct .equal) equal :: (ts ++ ends)) behind fun _ => True := by
  intro stop defaults spreads
  obtain ⟨bs, stop₁, hbindings, hall⟩ := takes_declarators h hends text name equal hfuel hlimit
    place.stop defaults spreads
  obtain ⟨stop₂, hsemicolon⟩ := semicolon_ends hends c stop₁ defaults spreads
  have hpass (rest : List Token) : passKind kind c
        ⟨plainToken (.keyword k false) place :: rest, stop, defaults, spreads⟩ =
      .ok ((), ⟨rest, place.stop, defaults, spreads⟩) := by
    have hone : (kind == .awaitUsing) = false := beq_false_of_ne hkind
    rw [passKind, hone]
    rfl
  refine ⟨.variableDecl ⟨m.start, stop₂, m.comments⟩ kind false bs, stop₂, ?_, trivial⟩
  simp only [List.cons_append, List.append_assoc] at hbindings ⊢
  simp [variableStatement, bind_apply, hpass, hbindings, context, require, if_pos (hall kind _),
    hsemicolon, since, pure_apply]

theorem readsOpen_declaration {k : Keyword} (hword : IsVariableWord k) {place name equal : Place}
    {text : Text} (h : ReadsAssignment ts) :
    ReadsOpen (plainToken (.keyword k false) place :: plainToken (.name text) name ::
      plainToken (.punct .equal) equal :: ts) := by
  intro n c ends behind hfuel hlimit hc hends stop defaults spreads
  simp only [List.length_cons] at hfuel hlimit
  have hrun (kind : VariableKind) (hkind : kind ≠ .awaitUsing) :=
    variableStatement_word (k := k) (c := c) (n := n) hkind h hends ⟨place.start, []⟩ text place
      name equal (by omega) (by omega) stop defaults spreads
  simp only [List.cons_append, List.append_assoc] at hrun ⊢
  have hnext (t : Token) (rest : List Token) : peekAhead 1 c
        ⟨plainToken (.keyword k false) place :: t :: rest, stop, defaults, spreads⟩ =
      .ok (t, ⟨plainToken (.keyword k false) place :: t :: rest, stop, defaults, spreads⟩) := rfl
  cases hword with
  | constWord =>
      obtain ⟨s, stop', hs, -⟩ := hrun .const (by decide)
      refine ⟨s, stop', statement_of_keyword ?_, trivial⟩
      have henum : isWord .kwEnum (plainToken (.name text) name) = false := rfl
      simp [keywordStatement, bind_apply, mark_cons, hnext, henum, hs]
  | letWord =>
      obtain ⟨s, stop', hs, -⟩ := hrun .let (by decide)
      refine ⟨s, stop', statement_of_keyword ?_, trivial⟩
      have hescaped : isEscapedWord (plainToken (.keyword .kwLet false) place) = false := rfl
      have hoperator (rest : List Token) :
          operator? (plainToken (.name text) name :: rest) = none := rfl
      have hmark (p : Punct) : isPunct p (plainToken (.name text) name) = false := rfl
      simp [keywordStatement, bind_apply, mark_cons, hnext, peek_cons, hescaped, letStatement,
        peekAll, hoperator, hmark, hs]
  | varWord =>
      obtain ⟨s, stop', hs, -⟩ := hrun .var (by decide)
      refine ⟨s, stop', statement_of_keyword ?_, trivial⟩
      simp [keywordStatement, bind_apply, mark_cons, hnext, hs]

theorem readsOpen_result {place : Place} {t : Token} (hgap : t.gap ≠ .newline)
    (hbegins : Heads BeginsAssignment (t :: ts)) (h : ReadsAssignment (t :: ts)) :
    ReadsOpen (plainToken (.keyword .kwReturn false) place :: t :: ts) := by
  intro n c ends behind hfuel hlimit hc hends stop defaults spreads
  rw [List.length_cons] at hfuel hlimit
  obtain ⟨n, rfl⟩ : ∃ k, n = k + 1 := ⟨n - 1, by omega⟩
  obtain ⟨e, stop₁, hvalue, -⟩ := takes_expression (c := nested c) h hends (by omega : _ ≤ n)
    (Nat.lt_of_succ_lt hlimit) place.stop defaults spreads
  obtain ⟨stop₂, hsemicolon⟩ := semicolon_ends hends c stop₁ defaults spreads
  have hself : productions (n + 1) .expression = expression (productions n) := rfl
  obtain ⟨kind, tplace, rest, hcons, hkind⟩ := hbegins
  obtain ⟨rfl, rfl⟩ := List.cons.inj hcons
  have hword (rest : List Token) : expectWord .kwReturn c
        ⟨plainToken (.keyword .kwReturn false) place :: rest, stop, defaults, spreads⟩ =
      .ok ((), ⟨rest, place.stop, defaults, spreads⟩) := rfl
  have hmore (rest : List Token) : atStatementEnd c
        ⟨plainToken kind tplace :: rest, place.stop, defaults, spreads⟩ =
      .ok (false, ⟨plainToken kind tplace :: rest, place.stop, defaults, spreads⟩) := by
    have hnone : kind ≠ .punct .semicolon ∧ kind ≠ .punct .braceClose ∧ kind ≠ .stop := by
      cases hkind with
      | operand h => cases h <;> simp
      | params => simp
    have hgap' : tplace.gap ≠ .newline := hgap
    simp [atStatementEnd, bind_apply, peek_cons, isPunct_plain_ne, hnone, hgap', pure_apply]
  refine ⟨.ret ⟨place.start, stop₂, []⟩ (some e), stop₂, ?_, trivial⟩
  simp only [List.cons_append, List.append_assoc] at hvalue ⊢
  refine statement_of_keyword ?_
  have hrun : returnStatement (productions (n + 1)) c
        ⟨plainToken (.keyword .kwReturn false) place :: plainToken kind tplace ::
          (ts ++ (ends ++ behind)), stop, defaults, spreads⟩ =
      .ok (.ret ⟨place.start, stop₂, []⟩ (some e), ⟨behind, stop₂, defaults, spreads⟩) := by
    simp [returnStatement, bind_apply, mark_cons, context, hc.inFunction, require, hword, hmore,
      nestedExpression, within_apply, hself, hvalue, hsemicolon, since, pure_apply]
  exact hrun

theorem readsClosed_semicolon {place : Place} (h : ReadsOpen ts) :
    ReadsClosed (ts ++ [plainToken (.punct .semicolon) place]) := by
  intro n c behind hfuel hlimit hc
  rw [List.length_append, List.length_singleton] at hfuel hlimit
  exact h n c [plainToken (.punct .semicolon) place] behind (by omega) (by omega) hc
    (.semicolon _ _)

/-- A function from its parameters on. -/
theorem takes_functionTail {params : List Token} (hparams : Params params) (h : ReadsStatements ts)
    (isAsync : Bool) (role : FunctionRole) (name : Option Name)
    (opening closing start stop : Place) (behind : List Token) (hfuel : 2 * ts.length + 3 ≤ n)
    (hlimit : params.length + ts.length < c.limit) (hc : c.inAmbient = false) :
    Takes (functionTail (productions n) isAsync false role name .orEnd) c
      (plainToken (.punct .parenOpen) opening ::
        (params ++ plainToken (.punct .parenClose) closing ::
          plainToken (.punct .braceOpen) start :: (ts ++ [plainToken (.punct .braceClose) stop])))
      behind fun f => f.typeParams = [] := by
  intro last defaults spreads
  obtain ⟨⟨loc, bs⟩, stop₁, hhead, -⟩ := takes_params
    (c := { inFunction isAsync false c with inFunction := c.inFunction }) hparams role opening
    closing (plainToken (.punct .braceOpen) start :: (ts ++ plainToken (.punct .braceClose) stop ::
      behind)) (by omega : 0 < n) (Nat.lt_of_le_of_lt (Nat.le_add_right _ _) hlimit) last defaults
    spreads
  obtain ⟨⟨ss, comments⟩, stop₂, hbody, -⟩ :=
    takes_bracedStatements (c := inFunction isAsync false c) h start stop behind hfuel
      (Nat.lt_of_le_of_lt (Nat.le_add_left _ _) hlimit) ⟨rfl, hc⟩ stop₁ defaults spreads
  simp only [List.cons_append, List.append_assoc, List.nil_append] at hhead hbody ⊢
  simp [functionTail, bind_apply, mark_cons, within_apply, typeParams, eat_miss, hhead,
    returnAnnotation, atPunct_hit, context, hc, require, hbody, since, pure_apply, Func.typeParams]

theorem takes_functionDeclaration {front params : List Token} {place : Place}
    (hfront : FunctionFront front place) (hparams : Params params) (h : ReadsStatements ts)
    (m : Mark) (text : Text) (name opening closing start stop : Place) (behind : List Token)
    (hfuel : 2 * ts.length + 3 ≤ n)
    (hlimit : params.length + ts.length < c.limit) (hc : c.inAmbient = false) :
    Takes (functionDeclaration (productions n) m .listed false true) c
      (front ++ plainToken (.keyword .kwFunction false) place ::
        plainToken (.name text) name :: plainToken (.punct .parenOpen) opening ::
          (params ++ plainToken (.punct .parenClose) closing ::
            plainToken (.punct .braceOpen) start ::
              (ts ++ [plainToken (.punct .braceClose) stop])))
      behind fun _ => True := by
  intro last defaults spreads
  obtain ⟨isAsync, last', hasync⟩ : ∃ isAsync last', ∀ rest, eatWord .kwAsync c
        ⟨front ++ plainToken (.keyword .kwFunction false) place :: rest, last, defaults, spreads⟩ =
      .ok (isAsync,
        ⟨plainToken (.keyword .kwFunction false) place :: rest, last', defaults, spreads⟩) := by
    cases hfront with
    | plain => exact ⟨false, last, fun rest => rfl⟩
    | async place' => exact ⟨true, place'.stop, fun rest => rfl⟩
  obtain ⟨f, stop₁, htail, -⟩ := takes_functionTail
    hparams h isAsync .standalone (some ⟨⟨name.start, name.stop, []⟩, text⟩) opening closing start
    stop behind hfuel hlimit hc name.stop defaults spreads
  have hword (rest : List Token) : expectWord .kwFunction c
        ⟨plainToken (.keyword .kwFunction false) place :: rest, last', defaults, spreads⟩ =
      .ok ((), ⟨rest, place.stop, defaults, spreads⟩) := rfl
  have hname (rest : List Token) : bindingName c
        ⟨plainToken (.name text) name :: rest, place.stop, defaults, spreads⟩ =
      .ok (⟨⟨name.start, name.stop, []⟩, text⟩, ⟨rest, name.stop, defaults, spreads⟩) := rfl
  refine ⟨.function ⟨m.start, stop₁, m.comments⟩ false f, stop₁, ?_, trivial⟩
  simp only [List.cons_append, List.append_assoc, List.nil_append] at htail ⊢
  simp only [functionDeclaration, bind_apply, hasync]
  simp [bind_apply, hword, eat_miss, require, atPunct_miss, hname, within_apply, htail, since,
    pure_apply]

theorem readsClosed_function {front params : List Token}
    {place name opening closing start stop : Place} {text : Text}
    (hfront : FunctionFront front place) (hparams : Params params) (h : ReadsStatements ts) :
    ReadsClosed (front ++ plainToken (.keyword .kwFunction false) place ::
      plainToken (.name text) name :: plainToken (.punct .parenOpen) opening ::
        (params ++ plainToken (.punct .parenClose) closing ::
          plainToken (.punct .braceOpen) start ::
            (ts ++ [plainToken (.punct .braceClose) stop]))) := by
  intro n c behind hfuel hlimit hc last defaults spreads
  simp only [List.length_append, List.length_cons, List.length_nil] at hfuel hlimit
  obtain ⟨first, hmark⟩ : ∃ first : Place, ∀ rest,
      mark c ⟨front ++ plainToken (.keyword .kwFunction false) place :: rest, last, defaults,
        spreads⟩ = .ok (⟨first.start, []⟩, ⟨front ++
          plainToken (.keyword .kwFunction false) place :: rest, last, defaults, spreads⟩) := by
    cases hfront with
    | plain => exact ⟨place, fun _ => rfl⟩
    | async place' => exact ⟨place', fun _ => rfl⟩
  obtain ⟨s, stop₁, hrun, -⟩ := takes_functionDeclaration (n := n) hfront hparams h
    ⟨first.start, []⟩ text name opening closing start stop behind (by omega) (by omega) hc.inAmbient
    last defaults spreads
  refine ⟨s, stop₁, ?_, trivial⟩
  simp only [List.cons_append, List.append_assoc, List.nil_append] at hrun ⊢
  have hstart := hmark (plainToken (.name text) name :: plainToken (.punct .parenOpen) opening ::
    (params ++ plainToken (.punct .parenClose) closing :: plainToken (.punct .braceOpen) start ::
      (ts ++ plainToken (.punct .braceClose) stop :: behind)))
  have hnext (t t' : Token) (rest : List Token) :
      peekAhead 1 c ⟨t :: t' :: rest, last, defaults, spreads⟩ =
        .ok (t', ⟨t :: t' :: rest, last, defaults, spreads⟩) := rfl
  cases hfront with
  | plain =>
      refine statement_of_keyword ?_
      simp only [List.nil_append] at hrun hstart ⊢
      simp only [keywordStatement, bind_apply, hstart, hnext, hrun]
  | async place' hgap =>
      refine statement_of_keyword ?_
      simp only [List.cons_append, List.nil_append] at hrun hstart ⊢
      have hword : isWord .kwFunction (plainToken (.keyword .kwFunction false) place) = true := rfl
      simp [keywordStatement, bind_apply, hstart, hnext, hword, hgap, hrun]

theorem readsStatements_nil : ReadsStatements [] := by
  intro n c closing rest _ _ _ stop defaults spreads
  refine ⟨[], stop, .done ?_, Nat.le_refl _⟩
  simp [braceStep, bind_apply, atPunct_hit, pure_apply]

/-- A statement in front of statements, whose end may be in its own tokens or what follows. -/
theorem readsStatements_cons {front : List Token} (hbegins : Heads BeginsLine front)
    (hmore : ReadsStatements us)
    (hfirst : ∀ (n : Nat) (c : Context) (closing : Place) (rest : List Token),
      2 * front.length + 2 ≤ n → front.length < c.limit → InBody c →
        Takes (statement (productions n) .listed) c front
          (us ++ plainToken (.punct .braceClose) closing :: rest) fun _ => True) :
    ReadsStatements (front ++ us) := by
  intro n c closing rest hfuel hlimit hc stop defaults spreads
  rw [List.length_append] at hfuel hlimit
  obtain ⟨n, rfl⟩ : ∃ k, n = k + 1 := ⟨n - 1, by omega⟩
  obtain ⟨s, stop₁, hstatement, -⟩ :=
    hfirst n c closing rest (by omega) (by omega) hc stop defaults spreads
  obtain ⟨kind, place, more, rfl, hkind⟩ := hbegins
  rw [List.length_cons] at hfuel hlimit
  obtain ⟨ss, stop₂, hsteps, hlength⟩ := hmore (n + 1) c closing rest (by omega) (by omega) hc
    stop₁ defaults spreads
  have hbrace : kind ≠ .punct .braceClose ∧ kind ≠ .stop := by
    cases hkind with
    | expression h => cases h <;> simp
    | declaration h => cases h <;> simp
    | _ => simp
  have hself : productions (n + 1) (.statement .listed) = statement (productions n) .listed := rfl
  refine ⟨s :: ss, stop₂, .more ?_ hsteps, ?_⟩
  · rw [List.append_assoc, List.cons_append] at *
    simp [braceStep, bind_apply, atPunct_miss, hbrace, peek_cons, hself, hstatement, pure_apply]
  · simp only [List.length_append, List.length_cons]
    omega

theorem readsStatements_closed (hbegins : Heads BeginsLine ts) (h : ReadsClosed ts)
    (hmore : ReadsStatements us) : ReadsStatements (ts ++ us) :=
  readsStatements_cons hbegins hmore fun n c closing rest hfuel hlimit hc =>
    h n c (us ++ plainToken (.punct .braceClose) closing :: rest) hfuel hlimit hc

theorem readsStatements_open (hbegins : Heads BeginsLine ts) (h : ReadsOpen ts)
    (hnext : us ≠ [] → Heads BeginsLine us) (hline : ∀ t ∈ us.head?, t.gap = .newline)
    (hmore : ReadsStatements us) : ReadsStatements (ts ++ us) := by
  refine readsStatements_cons hbegins hmore fun n c closing rest hfuel hlimit hc => ?_
  have hends : EndsStatement [] (us ++ plainToken (.punct .braceClose) closing :: rest) := by
    cases us with
    | nil => exact .brace closing rest
    | cons t us =>
        obtain ⟨kind, place, more, hcons, hkind⟩ := hnext (List.cons_ne_nil _ _)
        obtain ⟨rfl, rfl⟩ := List.cons.inj hcons
        exact .newline hkind (hline _ rfl) _
  have hrun := h n c [] (us ++ plainToken (.punct .braceClose) closing :: rest) hfuel hlimit hc
    hends
  rwa [List.append_nil] at hrun

end Reading

/-! ## All phrases -/

/-- What is read of the tokens of a phrase. -/
def Part.Reads : Part → List Token → Prop
  | .links, ts => ReadsLinks ts
  | .operand, ts => ReadsOperand ts
  | .chain, ts => IsChain ts
  | .assignment, ts => ReadsAssignment ts
  | .arrowBody, ts => ReadsArrowBody ts
  | .items, ts => ReadsItems ts
  | .list, ts => ReadsList ts
  | .entries, ts => ReadsEntries ts
  | .properties, ts => ReadsProperties ts
  | .statement true, ts => ReadsClosed ts
  | .statement false, ts => ReadsOpen ts
  | .statements, ts => ReadsStatements ts

/-- Whatever stands behind a phrase and ends it, the tokens of the phrase are read, and no more. -/
theorem Phrase.reads {part : Part} {ts : List Token} (h : Phrase part ts) : part.Reads ts := by
  induction h with
  | noLinks => exact readsLinks_nil
  | member hword _ ih => exact readsLinks_member hword ih
  | call _ _ ihargs ih => exact readsLinks_call ihargs ih
  | atom hatom _ ih => exact readsOperand_atom hatom ih
  | array _ _ ihelements ih => exact readsOperand_array ihelements ih
  | object _ _ ihproperties ih => exact readsOperand_object ihproperties ih
  | single h ih => exact isChain_single h.begins ih
  | operator hoperator hleft _ ihleft ihright =>
      exact isChain_operator hoperator hleft.begins ihleft ihright
  | value _ ih => exact readsAssignment_value ih
  | assign hname htarget _ ihtarget ihvalue =>
      exact readsAssignment_assign hname htarget.begins ihtarget ihvalue
  | bareArrow hgap _ ih => exact readsAssignment_bareArrow hgap ih
  | arrow hparams hgap _ ih => exact readsAssignment_arrow hparams hgap ih
  | concise hbrace hvalue ih => exact readsArrowBody_concise hbrace hvalue.begins ih
  | block _ ih => exact readsArrowBody_block ih
  | lastItem hitem ih => exact readsItems_last hitem.begins ih
  | item hitem _ ihitem ihmore => exact readsItems_cons hitem.begins ihitem ihmore
  | noItems => exact readsList_nil
  | items _ ih => exact readsList_items ih
  | lastEntry hkey _ ih => exact readsEntries_last hkey ih
  | entry hkey _ _ ihvalue ihmore => exact readsEntries_cons hkey ihvalue ihmore
  | noEntries => exact readsProperties_nil
  | entries _ ih => exact readsProperties_entries ih
  | expression hbegins _ ih => exact readsOpen_expression hbegins ih
  | declaration hword _ ih => exact readsOpen_declaration hword ih
  | result hgap hvalue ih => exact readsOpen_result hgap hvalue.begins ih
  | closed _ ih => exact readsClosed_semicolon ih
  | function hfront hparams _ ih => exact readsClosed_function hfront hparams ih
  | noStatements => exact readsStatements_nil
  | closedStatement hfirst _ ihfirst ihmore =>
      exact readsStatements_closed hfirst.begins ihfirst ihmore
  | openStatement hfirst hmore hline ihfirst ihmore =>
      exact readsStatements_open hfirst.begins ihfirst hmore.begins hline ihmore

end Parser

end Syntax

end NgFile
