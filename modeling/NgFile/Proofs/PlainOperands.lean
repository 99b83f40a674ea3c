import NgFile.Proofs.ParserRules
import NgFile.Proofs.TokenLayout

/-!
# Names and array literals as operands

Whatever part of the grammar yields a name or an array literal has passed just that: no operator,
no link and no arrow came with it.  So a name is one word, and an array literal is what its own
production has read.
-/

namespace NgFile

namespace Syntax

inductive Expr.IsPlain : Expr → Prop
  | ident (loc : Loc) (name : Text) : IsPlain (.ident loc name)
  | hole (loc : Loc) : IsPlain (.hole loc)
  | array (loc : Loc) (elements : List Expr) : IsPlain (.array loc elements)

def Expr.isComposite : Expr → Bool
  | .ident _ _ | .hole _ | .array _ _ | .object _ _ | .call _ _ _ _ _ _ _ => false
  | _ => true

namespace Parser

/-! ## Operands that pass through -/

/-- A parser yields a plain operand only as another one does. -/
def Passes (p q : Parser Expr) : Prop :=
  Ensures p fun c cur e after => e.IsPlain → q c cur = .ok (e, after)

/-- A parser yields no plain operand but a certain one, and passes nothing when it does. -/
def Returns (p : Parser Expr) (e : Expr) : Prop :=
  Ensures p fun _ cur e' after => e'.IsPlain → e' = e ∧ after = cur

abbrev Composes (p : Parser Expr) : Prop :=
  Yields p fun e => ¬ e.IsPlain

abbrev Closes (p : Parser Expr) : Prop :=
  Yields p fun e => e.isComposite = true

theorem Closes.composes {p : Parser Expr} (h : Closes p) : Composes p := by
  intro c cur e after hrun hplain
  have hcomposite := h c cur e after hrun
  cases hplain <;> cases hcomposite

section Passing

variable {α : Type} {p q : Parser Expr} {e : Expr}

theorem passes_refl (p : Parser Expr) : Passes p p :=
  fun _ _ _ _ h _ => h

theorem Composes.passes (h : Composes p) (q : Parser Expr) : Passes p q :=
  ensures_of_yields h fun _ _ _ _ he hplain => absurd hplain he

theorem Composes.returns (h : Composes p) (e : Expr) : Returns p e :=
  ensures_of_yields h fun _ _ _ _ he hplain => absurd hplain he

theorem passes_fail (q : Parser Expr) : Passes fail q :=
  ensures_fail

theorem passes_bind {f : Expr → Parser Expr} (hp : Passes p q) (hf : ∀ e, Returns (f e) e) :
    Passes (p >>= f) q := by
  intro c cur e' after h hplain
  obtain ⟨e, mid, hrun, hrest⟩ := exists_of_bind h
  obtain ⟨rfl, rfl⟩ := hf e c mid e' after hrest hplain
  exact hp c cur e' after hrun hplain

theorem returns_pure {e e' : Expr} (h : e'.IsPlain → e' = e) : Returns (pure e') e :=
  ensures_pure fun _ _ hplain => ⟨h hplain, rfl⟩

theorem returns_ite {condition : Prop} [Decidable condition] {e e' : Expr}
    (h : e'.IsPlain → e' = e) : Returns (pure (if condition then e' else e)) e := by
  split
  · exact returns_pure h
  · exact returns_pure fun _ => rfl

theorem eq_of_isPlain_asPure {e : Expr} (h : e.asPure.IsPlain) : e.asPure = e := by
  cases e with
  | call | construct | paren | chain | binary | conditional =>
      simp only [Expr.asPure] at h
      cases h
  | _ => simp only [Expr.asPure]

theorem eq_of_isPlain_asEffectFree {e : Expr} (h : e.asEffectFree.IsPlain) :
    e.asEffectFree = e := by
  cases e with
  | function | arrow => cases h
  | _ => rfl

theorem eq_of_isPlain_asChain {loc : Loc} {e : Expr} (h : (e.asChain loc).IsPlain) :
    e.asChain loc = e := by
  cases e with
  | instantiation | member | privateMember | index | call | nonNull =>
      simp only [Expr.asChain] at h
      cases h
  | _ => simp only [Expr.asChain]

end Passing

/-! ## Operands that grow -/

section Growth

variable {α : Type} {operand : α → Expr}

/-- A part makes an operand that is not plain, and without one nothing has been passed. -/
def Grown (operand : α → Expr) (cur : Cursor) (more : Option α) (after : Cursor) : Prop :=
  match more with
  | some a => ¬ (operand a).IsPlain
  | none => after = cur

def Grows (operand : α → Expr) (p : Parser (Option α)) : Prop :=
  Ensures p fun _ cur more after => Grown operand cur more after

def IsPart (operand : α → Expr) (more : Option α) : Prop :=
  ∃ a, more = some a ∧ ¬ (operand a).IsPlain

theorem grows_none (operand : α → Expr) : Grows operand (pure none) :=
  ensures_pure fun _ _ => rfl

theorem IsPart.grown {cur after : Cursor} {more : Option α} (h : IsPart operand more) :
    Grown operand cur more after := by
  obtain ⟨a, rfl, ha⟩ := h
  exact ha

theorem grows_of_yields {p : Parser (Option α)} (h : Yields p (IsPart operand)) :
    Grows operand p :=
  ensures_of_yields h fun _ _ _ _ hpart => hpart.grown

/-- Either nothing has been passed, or there is a part in the end. -/
theorem grows_stillAt {β : Type} {p : Parser β} {f : β → Parser (Option α)} {b : β}
    (hp : StillAt p b) (hsame : Grows operand (f b))
    (hother : ∀ b', b' ≠ b → Yields (f b') (IsPart operand)) : Grows operand (p >>= f) :=
  ensures_stillAt hp hsame hother fun _ _ _ _ hpart => hpart.grown

theorem yields_part {p : Parser Expr} (h : Composes p) {f : Expr → α}
    (hf : ∀ e, operand (f e) = e) :
    Yields (p >>= fun e => pure (some (f e))) (IsPart operand) :=
  yields_bind h fun e he => yields_pure ⟨f e, rfl, by rwa [hf]⟩

theorem grows_attempt {p : Parser Expr} (h : Composes p) : Grows id (attempt p) := by
  intro c cur more after hrun
  cases more with
  | none => exact stillAt_attempt p c cur none after hrun rfl
  | some e =>
      unfold attempt at hrun
      split at hrun
      · rename_i hp
        cases hrun
        exact h c cur e after hp
      · cases hrun

/-- Of two parsers in turn, the second one is tried if the first has no part. -/
theorem grows_orElse {p : Parser (Option α)} {f : Option α → Parser (Option α)}
    (hp : Grows operand p) (hsome : ∀ a, f (some a) = pure (some a))
    (hnone : Grows operand (f none)) : Grows operand (p >>= f) := by
  intro c cur more after h
  obtain ⟨first, mid, hrun, hrest⟩ := exists_of_bind h
  have hfirst := hp c cur first mid hrun
  cases first with
  | some a =>
      rw [hsome] at hrest
      cases hrest
      exact hfirst
  | none =>
      obtain rfl : mid = cur := hfirst
      exact hnone c mid more after hrest

/-- If the part in front makes no plain operand, a plain one comes from what is read instead. -/
theorem passes_orElse {p : Parser (Option Expr)} {f : Option Expr → Parser Expr} {q : Parser Expr}
    (hp : Grows id p) (hsome : ∀ e, f (some e) = pure e) (hnone : Passes (f none) q) :
    Passes (p >>= f) q := by
  intro c cur e after h hplain
  obtain ⟨first, mid, hrun, hrest⟩ := exists_of_bind h
  have hfirst := hp c cur first mid hrun
  cases first with
  | some e' =>
      rw [hsome] at hrest
      cases hrest
      exact absurd hplain hfirst
  | none =>
      obtain rfl : mid = cur := hfirst
      exact hnone c mid e after hrest hplain

/-- A plain operand has not grown at all. -/
theorem eq_of_refine {step : α → Parser (Option α)} (hstep : ∀ a, Grows operand (step a))
    {limit : Nat} {a b : α} {c : Context} {cur after : Cursor}
    (h : refine step limit a c cur = .ok (b, after)) (hplain : (operand b).IsPlain) :
    b = a ∧ after = cur := by
  -- Once it has grown it is not plain, and it stays so in all rounds that follow.
  induction limit generalizing a cur with
  | zero => exact (yields_fail (P := fun _ => False) c cur b after h).elim
  | succ limit ih =>
      obtain ⟨next, mid, hrun, hrest⟩ := exists_of_bind h
      have hnext := hstep a c cur next mid hrun
      cases next with
      | none =>
          cases hrest
          exact ⟨rfl, hnext⟩
      | some next =>
          obtain ⟨rfl, -⟩ := ih hrest
          exact absurd hplain hnext

theorem eq_of_iterate {step : α → Parser (Option α)} (hstep : ∀ a, Grows operand (step a))
    {a b : α} {c : Context} {cur after : Cursor} (h : iterate step a c cur = .ok (b, after))
    (hplain : (operand b).IsPlain) : b = a ∧ after = cur :=
  eq_of_refine hstep h hplain

end Growth

/-! ## Links -/

section Links

variable {self : Productions} {m : Mark} {e : Expr} {optional : Bool}

theorem closes_memberName : Closes (memberName m e optional) := by
  refine yields_then fun token => ?_
  split
  · exact yields_then fun _ => yields_then fun _ => yields_pure rfl
  · exact yields_then fun _ => yields_then fun _ => yields_pure rfl

theorem closes_memberIndex : Closes (memberIndex self m e optional) :=
  yields_then fun _ => yields_then fun _ => yields_then fun _ => yields_then fun _ =>
    yields_pure rfl

theorem composes_callLink {typeArgs : List Ty} :
    Composes (callLink self m e optional typeArgs) := by
  unfold callLink
  split
  exact yields_then fun _ => yields_then fun _ => yields_pure (by nofun)

theorem stillAt_typeArgsInExpression : StillAt (typeArgsInExpression self) none := by
  refine ensures_still fun atLess => ?_
  split
  · exact stillAt_attempt _
  · exact ensures_pure fun _ _ _ => rfl

/-- A link ends in a member, an index or a call; whether one is optional is noted beside it. -/
theorem yields_link {p : Parser Expr} (h : Composes p) (isChain : Bool) :
    Yields (p >>= fun e => pure (some (e, isChain))) (IsPart Prod.fst) :=
  yields_part h fun _ => rfl

theorem grows_memberLink {allowOptional : Bool} {links : Links} :
    Grows Prod.fst (memberLink self m allowOptional links) := by
  unfold memberLink
  refine ensures_still fun token => ensures_still fun next => ?_
  split
  · exact grows_of_yields (yields_then fun _ => yields_link closes_memberName.composes _)
  · split
    · exact grows_none _
    split
    · exact grows_of_yields (yields_then fun _ => yields_link closes_memberIndex.composes _)
    split
    · exact grows_of_yields (yields_then fun _ => yields_link closes_memberName.composes _)
    · exact grows_of_yields (yields_then fun _ => yields_link closes_memberName.composes _)
    · exact grows_of_yields (yields_then fun _ => yields_link closes_memberName.composes _)
    · exact grows_none _
  · refine ensures_still fun c => ?_
    split
    · exact grows_none _
    · exact grows_of_yields (yields_link closes_memberIndex.composes _)
  · split
    · exact grows_none _
    · exact grows_of_yields (yields_then fun _ => yields_then fun _ =>
        yields_pure ⟨_, rfl, by nofun⟩)
  · refine grows_of_yields (yields_then fun _ => ?_)
    exact yields_then fun _ => yields_then fun _ => yields_pure ⟨_, rfl, by nofun⟩
  · refine grows_stillAt stillAt_typeArgsInExpression (grows_none _) fun args hargs => ?_
    cases args with
    | none => exact absurd rfl hargs
    | some args => exact yields_then fun _ => yields_pure ⟨_, rfl, by nofun⟩
  · exact grows_none _

/-- One more link, a call included. -/
theorem grows_link (links : Links) : Grows Prod.fst (link self m links) := by
  refine grows_orElse grows_memberLink (fun _ => rfl) ?_
  obtain ⟨e, isChain⟩ := links
  refine grows_stillAt (stillAt_eat _) ?_ fun hit hhit => ?_
  · refine ensures_still fun atCall => ?_
    split
    · exact grows_of_yields (yields_link composes_callLink _)
    · exact grows_none _
  · rw [if_pos (by simpa using hhit)]
    exact yields_then fun _ => yields_link composes_callLink _

/-- A name or an array literal has no links. -/
theorem passes_leftHandSide (self : Productions) : Passes (leftHandSide self) (primary self) := by
  refine ensures_still fun m => passes_bind (passes_refl _) fun first => ?_
  intro c cur e' after h hplain
  obtain ⟨⟨e, isChain⟩, mid, hiter, hrest⟩ := exists_of_bind h
  have hresult : e' = e ∧ after = mid := by
    cases isChain with
    | false =>
        cases hrest
        exact ⟨rfl, rfl⟩
    | true =>
        obtain ⟨loc, mid', hsince, hpure⟩ := exists_of_bind hrest
        cases hsince
        cases hpure
        exact ⟨eq_of_isPlain_asChain hplain, rfl⟩
  obtain ⟨rfl, rfl⟩ := hresult
  obtain ⟨hsame, rfl⟩ := eq_of_iterate grows_link hiter hplain
  exact ⟨congrArg Prod.fst hsame, rfl⟩

end Links

/-! ## Operators -/

section Operators

variable {self : Productions} {m : Mark}

theorem passes_updateExpression (self : Productions) :
    Passes (updateExpression self) (primary self) := by
  refine ensures_still fun m => ensures_still fun token => ?_
  split
  · exact Composes.passes (yields_then fun _ => yields_then fun _ => yields_then fun _ =>
      yields_then fun _ => yields_pure (by nofun)) _
  · refine passes_bind (passes_leftHandSide self) fun e => ensures_still fun token => ?_
    split
    · exact Composes.returns (yields_then fun _ => yields_then fun _ => yields_then fun _ =>
        yields_pure (by nofun)) e
    · exact returns_pure fun _ => rfl

theorem passes_unary (self : Productions) : Passes (unary self) (primary self) := by
  refine ensures_still fun m => ensures_still fun token => ?_
  split
  · exact Composes.passes (yields_then fun _ => yields_then fun _ => yields_then fun _ =>
      yields_pure (by nofun)) _
  split
  · exact Composes.passes (yields_then fun _ => yields_then fun _ => yields_then fun _ =>
      yields_then fun _ => yields_then fun _ => yields_pure (by nofun)) _
  split
  · refine ensures_still fun c => ?_
    split
    · exact Composes.passes (yields_then fun _ => yields_then fun _ => yields_then fun _ =>
        yields_pure (by nofun)) _
    · refine ensures_still fun atOperand => ?_
      split
      · exact passes_fail _
      · exact passes_updateExpression self
  · exact passes_updateExpression self

theorem grows_binaryStep (above : Nat) (left : Expr) :
    Grows id (binaryStep self m above left) := by
  refine ensures_still fun tokens => ensures_still fun token => ensures_still fun c => ?_
  split
  · split
    · exact grows_none _
    · refine grows_of_yields (yields_then fun _ => yields_then fun _ =>
        yields_then fun loc => ?_)
      split
      · exact yields_pure ⟨_, rfl, by nofun⟩
      · exact yields_pure ⟨_, rfl, by nofun⟩
  · split
    · refine ensures_ite (grows_none _) (ensures_ite (grows_none _) ?_)
      exact grows_of_yields (yields_then fun _ => yields_then fun _ => yields_then fun _ =>
        yields_then fun _ => yields_then fun _ => yields_pure ⟨_, rfl, by nofun⟩)
    · exact grows_none _

/-- A name or an array literal has no operators. -/
theorem passes_binary (self : Productions) (above : Nat) :
    Passes (binary self above) (primary self) := by
  refine ensures_still fun m => ensures_still fun token => passes_bind ?_ fun first => ?_
  · split
    · exact Composes.passes (yields_then fun _ => yields_then fun _ => yields_then fun _ =>
        yields_then fun _ => yields_then fun _ => yields_then fun _ => yields_pure (by nofun)) _
    · exact passes_bind (passes_unary self) fun e => returns_ite eq_of_isPlain_asPure
  · exact fun c cur e after h hplain => eq_of_iterate (grows_binaryStep above) h hplain

end Operators

/-! ## Arrow functions and assignments -/

section Assignments

variable {self : Productions} {m : Mark}

theorem closes_arrowBody (self : Productions) (head : ArrowHead) (returnTypes : Bool) :
    Closes (arrowBody self head returnTypes) := by
  unfold arrowBody
  extract_lets build
  refine yields_then fun atBrace => ?_
  split
  · refine yields_then fun _ => yields_then fun _ => ?_
    split
    exact yields_then fun _ => yields_pure rfl
  · exact yields_then fun _ => yields_then fun _ => yields_pure rfl

theorem closes_bareArrow (self : Productions) (m : Mark) (isAsync : Bool) (name : Name)
    (returnTypes : Bool) : Closes (bareArrow self m isAsync name returnTypes) :=
  yields_then fun _ => yields_then fun _ => yields_then fun _ => closes_arrowBody _ _ _

theorem closes_yieldExpression (self : Productions) : Closes (yieldExpression self) := by
  refine yields_then fun m => yields_then fun _ => yields_then fun token => ?_
  split
  · exact yields_then fun _ => yields_pure rfl
  · refine yields_then fun delegate => yields_then fun token => ?_
    extract_lets isEnd
    split
    · exact yields_then fun _ => yields_pure rfl
    · exact yields_then fun _ => yields_then fun _ => yields_pure rfl

theorem grows_possibleArrow (self : Productions) (returnTypes : Bool) :
    Grows id (possibleArrow self returnTypes) := by
  refine ensures_still fun tokens => ?_
  split
  · exact grows_none _
  · exact grows_of_yields (yields_then fun head =>
      yields_part (closes_arrowBody self head true).composes fun _ => rfl)
  · refine grows_stillAt (stillAt_attempt _) ?_ fun head hhead => ?_
    · exact grows_attempt (yields_then fun head =>
        yields_bind (closes_arrowBody self head returnTypes).composes fun e he =>
          yields_then fun _ => yields_then fun _ => yields_pure he)
    · cases head with
      | none => exact absurd rfl hhead
      | some head =>
          exact yields_part (closes_arrowBody self head returnTypes).composes fun _ => rfl

theorem returns_assignmentTail (self : Productions) (m : Mark) (left : Expr)
    (returnTypes : Bool) : Returns (assignmentTail self m left returnTypes) left := by
  refine ensures_still fun tokens => ?_
  split
  · exact Composes.returns (yields_then fun _ => yields_then fun _ => yields_then fun _ =>
      yields_then fun _ => yields_pure (by nofun)) left
  · refine ensures_stillAt (stillAt_eat _) (returns_pure fun _ => rfl) ?_
      fun _ _ _ _ he hplain => absurd hplain he
    intro hit hhit
    rw [if_pos (by simpa using hhit)]
    exact yields_then fun _ => yields_then fun _ => yields_then fun _ => yields_then fun _ =>
      yields_pure (by nofun)

theorem passes_unmarkedAssignment (self : Productions) (returnTypes : Bool) :
    Passes (unmarkedAssignment self returnTypes) (primary self) := by
  refine ensures_still fun m => ensures_still fun token => ensures_still fun c => ?_
  split
  · exact (closes_yieldExpression self).composes.passes _
  refine ensures_still fun atOperand => ?_
  split
  · exact passes_fail _
  refine passes_orElse (grows_possibleArrow self returnTypes) (fun _ => rfl) ?_
  refine ensures_still fun atAsync => ?_
  split
  · exact Composes.passes (yields_then fun _ => yields_then fun name =>
      (closes_bareArrow _ _ _ _ _).composes) _
  refine passes_bind (passes_binary self _) fun left => ensures_still fun atArrow => ?_
  split
  · exact (closes_bareArrow _ _ _ _ _).composes.returns _
  · exact returns_assignmentTail self m left returnTypes

/-- A name or an array literal is the whole of its assignment. -/
theorem passes_assignment (self : Productions) (returnTypes : Bool) :
    Passes (assignment self returnTypes) (primary self) :=
  ensures_still fun _ => passes_bind (passes_unmarkedAssignment self returnTypes) fun _ =>
    returns_ite eq_of_isPlain_asEffectFree

end Assignments

/-! ## Operands without links -/

section Primary

variable {self : Productions}

/-- How a plain operand is read: as one word, or by the production of array literals. -/
inductive ReadsPlain (self : Productions) (c : Context) (cur : Cursor) : Expr → Cursor → Prop
  | word {token : Token} {name : Text} {after : Cursor} (hrest : cur.rest = token :: after.rest)
      (hword : isAnyWord token = true) :
      ReadsPlain self c cur (.ident ⟨token.start, token.stop, token.comments⟩ name) after
  | array {loc : Loc} {elements : List Expr} {after : Cursor}
      (h : arrayLiteral self c cur = .ok (.array loc elements, after)) :
      ReadsPlain self c cur (.array loc elements) after

abbrev Reads (self : Productions) (p : Parser Expr) : Prop :=
  Ensures p fun c cur e after => e.IsPlain → ReadsPlain self c cur e after

theorem Composes.reads {p : Parser Expr} (h : Composes p) : Reads self p :=
  ensures_of_yields h fun _ _ _ _ he hplain => absurd hplain he

theorem isAnyWord_of_nameText? {token : Token} {text : Text} (h : nameText? token = some text) :
    isAnyWord token = true := by
  unfold nameText? at h
  unfold isAnyWord wordText?
  split at h
  all_goals simp_all

theorem ensures_bindingName :
    Ensures bindingName fun _ cur name after =>
      ∃ token, cur.rest = token :: after.rest ∧ isAnyWord token = true ∧
        name.loc = ⟨token.start, token.stop, token.comments⟩ := by
  intro c cur name after h
  obtain ⟨rest, stop, defaults, spreads⟩ := cur
  cases rest with
  | nil => cases h
  | cons token rest =>
      simp only [bindingName, mark_cons, peek_cons, context, bind_apply] at h
      cases hguard : isWord .kwAwait token && c.inAwait || isWord .kwYield token && c.inYield with
      | true =>
          rw [hguard] at h
          cases h
      | false =>
          rw [hguard] at h
          cases htext : nameText? token with
          | none =>
              rw [htext] at h
              cases h
          | some text =>
              rw [htext] at h
              cases h
              exact ⟨token, rfl, isAnyWord_of_nameText? htext, rfl⟩

theorem reads_name :
    Reads self (bindingName >>= fun name => pure (.ident name.loc name.text)) := by
  intro c cur e after h _
  obtain ⟨name, mid, hname, hpure⟩ := exists_of_bind h
  cases hpure
  obtain ⟨token, hrest, hword, hloc⟩ := ensures_bindingName c cur name after hname
  rw [hloc]
  exact .word hrest hword

theorem closes_functionExpression : Closes (functionExpression self) :=
  yields_then fun _ => yields_then fun _ => yields_then fun _ => yields_then fun _ =>
    yields_then fun _ => yields_then fun _ => yields_then fun _ => yields_pure rfl

theorem closes_classExpression : Closes (classExpression self) :=
  yields_then fun _ => yields_then fun _ => yields_then fun _ => yields_then fun _ =>
    yields_pure rfl

theorem closes_newExpression : Closes (newExpression self) := by
  refine yields_then fun m => yields_then fun _ => yields_then fun hasDot => ?_
  split
  · exact yields_then fun _ => yields_then fun _ => yields_pure rfl
  · refine yields_then fun _ => yields_then fun _ => yields_then fun _ => yields_then fun _ => ?_
    split
    split
    extract_lets construct
    have hconstruct (r : Unit) : Closes (construct r) :=
      yields_then fun _ => yields_then fun _ => yields_pure rfl
    split
    · exact yields_then hconstruct
    · exact hconstruct ()

theorem closes_importCall {m : Mark} {phase : ImportPhase} :
    Closes (importCall self m phase) :=
  yields_then fun _ => yields_then fun _ => yields_then fun _ => yields_then fun _ =>
    yields_then fun _ => yields_then fun _ => yields_pure rfl

theorem closes_importExpression : Closes (importExpression self) := by
  refine yields_then fun m => yields_then fun _ => yields_then fun hasDot => ?_
  split
  · refine yields_then fun isMeta => ?_
    split
    · exact yields_then fun _ => yields_pure rfl
    refine yields_then fun isSource => ?_
    split
    · exact closes_importCall
    refine yields_then fun isDefer => ?_
    split
    · exact closes_importCall
    · exact yields_fail
  · exact closes_importCall

theorem composes_objectLiteral : Composes (objectLiteral self) := by
  refine yields_then fun m => yields_then fun _ => yields_then fun read => yields_then fun _ => ?_
  split
  · exact yields_then fun _ => yields_then fun _ => yields_pure (by nofun)
  · exact yields_then fun _ => yields_pure (by nofun)

theorem closes_literalKey : Closes literalKey := by
  refine yields_then fun m => yields_then fun token => ?_
  split
  · exact yields_then fun _ => yields_then fun _ => yields_pure rfl
  · exact yields_then fun _ => yields_then fun _ => yields_pure rfl
  · exact yields_then fun _ => yields_then fun _ => yields_pure rfl
  · exact yields_fail

theorem closes_regexLiteral : Closes regexLiteral := by
  refine yields_then fun m => yields_then fun _ => yields_then fun token => ?_
  split
  · exact yields_then fun _ => yields_then fun _ => yields_pure rfl
  · exact yields_fail

theorem yields_arrayLiteral :
    Yields (arrayLiteral self) fun e => ∃ loc elements, e = .array loc elements := by
  refine yields_then fun m => yields_then fun _ => yields_then fun read => yields_then fun _ => ?_
  split
  · exact yields_then fun _ => yields_then fun _ => yields_pure ⟨_, _, rfl⟩
  · exact yields_then fun _ => yields_pure ⟨_, _, rfl⟩

theorem reads_arrayLiteral : Reads self (arrayLiteral self) := by
  intro c cur e after h _
  obtain ⟨loc, elements, rfl⟩ := yields_arrayLiteral c cur e after h
  exact .array h

theorem reads_keywordOperand (k : Keyword) : Reads self (keywordOperand self k) := by
  refine ensures_still fun m => ensures_still fun next => ?_
  split
  case h_6 => exact closes_functionExpression.composes.reads
  case h_7 => exact closes_classExpression.composes.reads
  case h_8 => exact closes_newExpression.composes.reads
  case h_9 => exact closes_importExpression.composes.reads
  case h_10 => exact ensures_ite closes_functionExpression.composes.reads reads_name
  case h_2 =>
    exact Composes.reads (yields_then fun _ => yields_then fun _ => yields_then fun _ =>
      yields_pure (by nofun))
  all_goals exact Composes.reads (yields_then fun _ => yields_then fun _ => yields_pure (by nofun))

/-- A plain operand without links is one word, or read as an array literal. -/
theorem reads_primary (self : Productions) : Reads self (primary self) := by
  refine ensures_still fun m => ensures_still fun token => ?_
  split
  case h_1 | h_2 | h_3 => exact closes_literalKey.composes.reads
  case h_4 =>
    exact Composes.reads (yields_then fun _ => yields_then fun _ => yields_pure (by nofun))
  case h_5 | h_6 => exact closes_regexLiteral.composes.reads
  case h_7 => exact reads_arrayLiteral
  case h_8 => exact composes_objectLiteral.reads
  case h_9 =>
    exact Composes.reads (yields_then fun _ => yields_then fun _ => yields_then fun _ =>
      yields_then fun _ => yields_then fun _ => yields_pure (by nofun))
  case h_10 => exact closes_classExpression.composes.reads
  case h_11 => exact reads_keywordOperand _
  case h_12 => exact reads_name

/-- An assignment that is plain is one word, or read as an array literal. -/
theorem reads_assignment {n : Nat} {returnTypes : Bool} {c : Context} {cur after : Cursor}
    {e : Expr} (h : productions n (.assignment returnTypes) c cur = .ok (e, after))
    (hplain : e.IsPlain) : ∃ k, ReadsPlain (productions k) c cur e after := by
  cases n with
  | zero => exact (yields_fail (P := fun _ => False) c cur e after h).elim
  | succ k =>
      have hprimary := passes_assignment (productions k) returnTypes c cur e after h hplain
      exact ⟨k, reads_primary _ c cur e after hprimary hplain⟩

end Primary

end Parser

end Syntax

end NgFile
