import NgFile.Proofs.Classification
import NgFile.Proofs.NameLists

/-!
# Lists of names in calls

Where a call that is a statement has an object literal for an argument, and an array literal with
names for one of its values, the text of that literal is a list of the names.  The tokens in
front of every part of the grammar stand in the text, and no part of it makes such a literal but
the production of array literals.
-/

namespace NgFile

namespace Syntax

/-! ## Literals in expressions -/

/-- An expression is another one, or that is a value of an object in it or an argument of a call. -/
inductive Expr.Holds : Expr → Expr → Prop
  | refl (e : Expr) : Holds e e
  | value {loc pairLoc : Loc} {key : Key} {value e : Expr} {properties : List Property}
      (hmem : .pair pairLoc key value ∈ properties) (h : Holds value e) :
      Holds (.object loc properties) e
  | argument {loc : Loc} {callee a e : Expr} {optional : Bool} {typeArgs : List Ty}
      {args : List Expr} {closing : List Comment} {pure : Bool} (hmem : a ∈ args)
      (h : Holds a e) : Holds (.call loc callee optional typeArgs args closing pure) e

/-- The array literals with names that an expression holds are lists of these in a text. -/
def Expr.HoldsLists (source : Text) (e : Expr) : Prop :=
  ∀ loc elements, e.Holds (.array loc elements) → (∀ x ∈ elements, x.isListed = true) →
    ∃ body, loc.text source = '[' :: body ∧
      ListTail body (elements.filterMap (Expr.listedName? source))

def Property.HoldsLists (source : Text) : Property → Prop
  | .pair _ _ value => value.HoldsLists source
  | _ => True

def Stmt.HoldsLists (source : Text) : Stmt → Prop
  | .expression _ e => e.HoldsLists source
  | _ => True

section Holders

variable {source : Text} {e : Expr}

theorem Expr.holdsLists_of_isComposite (h : e.isComposite = true) : e.HoldsLists source := by
  intro loc elements hholds
  cases hholds <;> cases h

theorem Expr.holdsLists_ident (loc : Loc) (name : Text) :
    (Expr.ident loc name).HoldsLists source := by
  intro loc' elements hholds
  cases hholds

theorem Expr.HoldsLists.asPure (h : e.HoldsLists source) : e.asPure.HoldsLists source := by
  cases e with
  | call loc callee optional typeArgs args closing pure =>
      intro loc' elements hholds
      refine h loc' elements ?_
      cases hholds with
      | argument hmem hheld => exact .argument hmem hheld
  | construct | paren | chain | binary | conditional =>
      exact holdsLists_of_isComposite (by simp [Expr.asPure, isComposite])
  | _ => simpa only [Expr.asPure] using h

theorem Expr.HoldsLists.asChain (loc : Loc) (h : e.HoldsLists source) :
    (e.asChain loc).HoldsLists source := by
  cases e with
  | instantiation | member | privateMember | index | call | nonNull =>
      exact holdsLists_of_isComposite (by simp [Expr.asChain, isComposite])
  | _ => simpa only [Expr.asChain] using h

theorem Expr.HoldsLists.asEffectFree (h : e.HoldsLists source) :
    e.asEffectFree.HoldsLists source := by
  cases e with
  | function | arrow => exact holdsLists_of_isComposite rfl
  | _ => exact h

theorem Stmt.holdsLists_of_isPlain {s : Stmt} (h : s.isPlain = true) :
    s.HoldsLists source := by
  cases s with
  | expression => cases h
  | _ => trivial

theorem Stmt.HoldsLists.asEffectFree {s : Stmt} (h : s.HoldsLists source) :
    s.asEffectFree.HoldsLists source := by
  unfold Stmt.asEffectFree
  split
  · trivial
  · trivial
  · trivial
  · trivial
  · trivial
  · exact h

end Holders

namespace Parser

abbrev Finds {α : Type} (source : Text) (p : Parser α) (P : α → Prop) : Prop :=
  FindsBefore source (Standing source) p P

/-! ## Literals -/

section Literals

variable {source : Text} {self : Productions}

abbrev FindsLists (source : Text) (p : Parser Expr) : Prop :=
  Finds source p (Expr.HoldsLists source)

theorem Closes.finds {p : Parser Expr} (h : Closes p) : FindsLists source p :=
  finds_of_yields fun c cur e after hrun => Expr.holdsLists_of_isComposite (h c cur e after hrun)

theorem findsLists_arrayLiteral (n : Nat) : FindsLists source (arrayLiteral (productions n)) := by
  rintro c cur e after h rfl hcur
  obtain ⟨loc, elements, rfl⟩ := yields_arrayLiteral c cur e after h
  intro loc elements hholds hlisted
  cases hholds
  obtain ⟨front, text, hsource, hlaid⟩ := hcur.laid
  obtain ⟨gap, body, rest, rfl, htail, hstart, hstop⟩ :=
    listTail_of_arrayLiteral h hlisted hsource hlaid
  refine ⟨body, ?_, htail⟩
  have hwhole : c.source = front ++ gap ++ ('[' :: body ++ rest) := by simp [hsource]
  have hlength : loc.stop = (front ++ gap).length + ('[' :: body).length :=
    hstop.trans List.length_append
  rw [Loc.text, hstart, hlength, hwhole]
  exact Text.slice_append_middle _ _ _

theorem yields_objectMethod (m : Mark) (kind : MethodKind) (isAsync isGenerator : Bool)
    (key : Key) :
    Yields (objectMethod self m kind isAsync isGenerator key) (Property.HoldsLists source) :=
  yields_then fun _ => yields_then fun _ => yields_then fun _ => yields_pure trivial

variable (hself : ∀ returnTypes, FindsLists source (self (.assignment returnTypes)))

include hself

theorem finds_nestedAssignment : FindsLists source (nestedAssignment self) :=
  finds_within (hself true)

variable [∀ goal, Keeps (self goal)]

theorem finds_pairOrShorthand (m : Mark) (first : Token) (key : Key) :
    Finds source (pairOrShorthand self m first key) (Property.HoldsLists source) := by
  refine finds_then fun isPair => ?_
  split
  · exact finds_bind (finds_nestedAssignment hself) fun value hvalue =>
      finds_then fun loc => finds_pure hvalue
  · refine finds_then fun c => ?_
    split
    · refine finds_then fun _ => finds_then fun hasValue => ?_
      split
      · exact finds_then fun _ => finds_then fun _ => finds_then fun _ => finds_pure trivial
      · exact finds_then fun _ => finds_pure trivial
    · exact finds_fail

theorem finds_property : Finds source (property self) (Property.HoldsLists source) := by
  refine finds_then fun m => finds_then fun isSpread => ?_
  split
  · exact finds_then fun _ => finds_then fun _ => finds_pure trivial
  refine finds_then fun isGetter => ?_
  split
  · exact finds_then fun _ => finds_then fun _ => finds_of_yields (yields_objectMethod _ _ _ _ _)
  refine finds_then fun isSetter => ?_
  split
  · exact finds_then fun _ => finds_then fun _ => finds_of_yields (yields_objectMethod _ _ _ _ _)
  refine finds_then fun isAsync => ?_
  extract_lets rest
  have hrest (r : Unit) : Finds source (rest r) (Property.HoldsLists source) := by
    refine finds_then fun isGenerator => finds_then fun first => finds_then fun key =>
      finds_then fun token => ?_
    split
    · exact finds_of_yields (yields_objectMethod _ _ _ _ _)
    · exact finds_pairOrShorthand hself m first key
  split
  · exact finds_then fun _ => hrest ()
  · exact hrest ()

theorem findsLists_objectLiteral : FindsLists source (objectLiteral self) := by
  refine finds_then fun m => finds_then fun _ => ?_
  refine finds_bind (finds_within (finds_commaList _ (finds_property hself))) fun read hread => ?_
  have hobject (loc : Loc) : (Expr.object loc read.1).HoldsLists source := by
    intro loc' elements hholds
    cases hholds with
    | value hmem hheld => exact hread _ hmem loc' elements hheld
  refine finds_then fun _ => ?_
  split
  · exact finds_then fun _ => finds_then fun loc => finds_pure (hobject loc)
  · exact finds_then fun loc => finds_pure (hobject loc)

/-- An argument of a call holds lists only. -/
theorem finds_arguments :
    Finds source (arguments self) fun read => ∀ a ∈ read.1, a.HoldsLists source := by
  refine finds_then fun _ => ?_
  have hargument : FindsLists source (spreadOrAssignment self) := by
    refine finds_then fun m => finds_then fun isSpread => ?_
    split
    · exact Closes.finds (yields_then fun _ => yields_then fun _ => yields_pure rfl)
    · exact finds_nestedAssignment hself
  refine finds_bind (finds_within (finds_commaList _ hargument)) fun read hread => ?_
  exact finds_then fun _ => finds_then fun _ => finds_pure hread

theorem findsLists_callLink (m : Mark) (e : Expr) (optional : Bool) (typeArgs : List Ty) :
    FindsLists source (callLink self m e optional typeArgs) := by
  unfold callLink
  split
  refine finds_bind (finds_arguments hself) fun read hread => finds_then fun loc => finds_pure ?_
  intro loc' elements hholds
  cases hholds with
  | argument hmem hheld => exact hread _ hmem loc' elements hheld

end Literals

/-! ## Links and operators -/

section Links

variable {source : Text} {self : Productions} {m : Mark}

/-- A link other than a call makes a composite operand. -/
theorem yields_memberLink (allowOptional : Bool) (links : Links) :
    Yields (memberLink self m allowOptional links) fun more =>
      ∀ b ∈ more, b.1.isComposite = true := by
  have hlink {p : Parser Expr} (h : Closes p) (isChain : Bool) :
      Yields (p >>= fun e => pure (some (e, isChain)))
        fun more : Option Links => ∀ b ∈ more, b.1.isComposite = true :=
    yields_bind h fun e he => yields_pure (by simpa using he)
  unfold memberLink
  refine yields_then fun token => yields_then fun next => ?_
  split
  · exact yields_then fun _ => hlink closes_memberName _
  · split
    · exact yields_none
    split
    · exact yields_then fun _ => hlink closes_memberIndex _
    split
    · exact yields_then fun _ => hlink closes_memberName _
    · exact yields_then fun _ => hlink closes_memberName _
    · exact yields_then fun _ => hlink closes_memberName _
    · exact yields_none
  · refine yields_then fun c => ?_
    split
    · exact yields_none
    · exact hlink closes_memberIndex _
  · split
    · exact yields_none
    · exact yields_then fun _ => yields_then fun _ => yields_pure (by simp [Expr.isComposite])
  · exact yields_then fun _ => yields_then fun _ => yields_then fun _ =>
      yields_pure (by simp [Expr.isComposite])
  · refine yields_then fun args => ?_
    split
    · exact yields_then fun _ => yields_pure (by simp [Expr.isComposite])
    · exact yields_none
  · exact yields_none

theorem yields_possibleArrow (returnTypes : Bool) :
    Yields (possibleArrow self returnTypes) fun more => ∀ e ∈ more, e.isComposite = true := by
  have hsome {p : Parser Expr} (h : Closes p) :
      Yields (p >>= fun e => pure (some e)) fun more => ∀ e ∈ more, e.isComposite = true :=
    yields_bind h fun e he => yields_pure (by simpa using he)
  refine yields_then fun tokens => ?_
  split
  · exact yields_none
  · exact yields_then fun head => hsome (closes_arrowBody self head true)
  · refine yields_then fun head => ?_
    split
    · exact hsome (closes_arrowBody self _ returnTypes)
    · have harrow : Closes (do
          let head ← arrowHead self
          let e ← arrowBody self head returnTypes
          require (← atPunct .colon)
          pure e) :=
        yields_then fun head => yields_bind (closes_arrowBody self head returnTypes) fun e he =>
          yields_then fun _ => yields_then fun _ => yields_pure he
      intro c cur more after h
      unfold attempt at h
      split at h
      · rename_i hrun
        cases h
        simpa using harrow _ _ _ _ hrun
      · cases h
        simp

theorem findsLists_name :
    FindsLists source (bindingName >>= fun name => pure (.ident name.loc name.text)) :=
  finds_then fun _ => finds_pure (Expr.holdsLists_ident _ _)

theorem findsLists_keywordOperand (k : Keyword) :
    FindsLists source (keywordOperand self k) := by
  refine finds_then fun m => finds_then fun next => ?_
  split
  case h_6 => exact closes_functionExpression.finds
  case h_7 => exact closes_classExpression.finds
  case h_8 => exact closes_newExpression.finds
  case h_9 => exact closes_importExpression.finds
  case h_10 =>
    split
    · exact closes_functionExpression.finds
    · exact findsLists_name
  case h_2 =>
    exact Closes.finds (yields_then fun _ => yields_then fun _ => yields_then fun _ =>
      yields_pure rfl)
  all_goals exact Closes.finds (yields_then fun _ => yields_then fun _ => yields_pure rfl)

theorem yields_binaryStep (above : Nat) (left : Expr) :
    Yields (binaryStep self m above left) fun more => ∀ e ∈ more, e.isComposite = true := by
  refine yields_then fun tokens => yields_then fun token => yields_then fun c => ?_
  split
  · split
    · exact yields_none
    · refine yields_then fun _ => yields_then fun _ => yields_then fun loc => ?_
      split
      · exact yields_pure (by simp [Expr.isComposite])
      · exact yields_pure (by simp [Expr.isComposite])
  · split
    · refine yields_ite (yields_none) (yields_ite (yields_none) ?_)
      exact yields_then fun _ => yields_then fun _ => yields_then fun _ => yields_then fun _ =>
        yields_then fun _ => yields_pure (by simp [Expr.isComposite])
    · exact yields_none

theorem findsLists_assignmentTail [∀ goal, Keeps (self goal)] (left : Expr)
    (hleft : left.HoldsLists source) (returnTypes : Bool) :
    FindsLists source (assignmentTail self m left returnTypes) := by
  refine finds_then fun tokens => ?_
  split
  · exact Closes.finds (yields_then fun _ => yields_then fun _ => yields_then fun _ =>
      yields_then fun _ => yields_pure rfl)
  · refine finds_then fun hasQuestion => ?_
    split
    · exact Closes.finds (yields_then fun _ => yields_then fun _ => yields_then fun _ =>
        yields_then fun _ => yields_pure rfl)
    · exact finds_pure hleft

end Links

section Operands

variable {source : Text} {self : Productions} [∀ goal, Keeps (self goal)] {m : Mark}
variable (harray : FindsLists source (arrayLiteral self))
variable (hself : ∀ returnTypes, FindsLists source (self (.assignment returnTypes)))

include harray hself

theorem findsLists_primary : FindsLists source (primary self) := by
  refine finds_then fun m => finds_then fun token => ?_
  split
  case h_1 | h_2 | h_3 => exact closes_literalKey.finds
  case h_4 => exact Closes.finds (yields_then fun _ => yields_then fun _ => yields_pure rfl)
  case h_5 | h_6 => exact closes_regexLiteral.finds
  case h_7 => exact harray
  case h_8 => exact findsLists_objectLiteral hself
  case h_9 =>
    exact Closes.finds (yields_then fun _ => yields_then fun _ => yields_then fun _ =>
      yields_then fun _ => yields_then fun _ => yields_pure rfl)
  case h_10 => exact closes_classExpression.finds
  case h_11 => exact findsLists_keywordOperand _
  case h_12 => exact findsLists_name

omit harray in
/-- One more link holds lists only: a call by its arguments, any other one nothing. -/
theorem finds_link (links : Links) :
    Finds source (link self m links) fun more => ∀ b ∈ more, b.1.HoldsLists source := by
  have hcall {p : Parser Expr} (h : FindsLists source p) [Keeps p] (isChain : Bool) :
      Finds source (p >>= fun e => pure (some (e, isChain)))
        fun more : Option Links => ∀ b ∈ more, b.1.HoldsLists source :=
    finds_bind h fun e he => finds_pure (by simpa using he)
  refine finds_bind (finds_of_yields (yields_memberLink true links)) fun member hmember => ?_
  split
  · exact finds_pure fun b hb => Expr.holdsLists_of_isComposite (hmember b hb)
  · split
    refine finds_then fun isOptional => ?_
    split
    · exact finds_then fun _ => hcall (findsLists_callLink hself m _ true _) true
    · refine finds_then fun atCall => ?_
      split
      · exact hcall (findsLists_callLink hself m _ false _) _
      · exact finds_none

theorem findsLists_leftHandSide : FindsLists source (leftHandSide self) := by
  refine finds_then fun m => finds_bind (findsLists_primary harray hself) fun first hfirst => ?_
  refine finds_bind (P := fun b : Links => b.1.HoldsLists source)
    (finds_iterate (fun links _ => finds_link hself links) hfirst) fun links hlinks => ?_
  split
  split
  · exact finds_then fun loc => finds_pure (hlinks.asChain loc)
  · exact finds_pure hlinks

theorem findsLists_updateExpression : FindsLists source (updateExpression self) := by
  refine finds_then fun m => finds_then fun token => ?_
  split
  · exact Closes.finds (yields_then fun _ => yields_then fun _ => yields_then fun _ =>
      yields_then fun _ => yields_pure rfl)
  · refine finds_bind (findsLists_leftHandSide harray hself) fun e he => finds_then fun token => ?_
    split
    · exact Closes.finds (yields_then fun _ => yields_then fun _ => yields_then fun _ =>
        yields_pure rfl)
    · exact finds_pure he

theorem findsLists_unary : FindsLists source (unary self) := by
  refine finds_then fun m => finds_then fun token => ?_
  split
  · exact Closes.finds (yields_then fun _ => yields_then fun _ => yields_then fun _ =>
      yields_pure rfl)
  split
  · exact Closes.finds (yields_then fun _ => yields_then fun _ => yields_then fun _ =>
      yields_then fun _ => yields_then fun _ => yields_pure rfl)
  split
  · refine finds_then fun c => ?_
    split
    · exact Closes.finds (yields_then fun _ => yields_then fun _ => yields_then fun _ =>
        yields_pure rfl)
    · refine finds_then fun atOperand => ?_
      split
      · exact finds_fail
      · exact findsLists_updateExpression harray hself
  · exact findsLists_updateExpression harray hself

theorem findsLists_binary (above : Nat) :
    FindsLists source (binary self above) := by
  refine finds_then fun m => finds_then fun token => ?_
  refine finds_andThen (P := Expr.HoldsLists source) ?_ ?_ fun first hfirst => ?_
  · split
    · infer_instance
    · infer_instance
  · split
    · exact Closes.finds (yields_then fun _ => yields_then fun _ => yields_then fun _ =>
        yields_then fun _ => yields_then fun _ => yields_then fun _ => yields_pure rfl)
    · refine finds_bind (findsLists_unary harray hself) fun e he => finds_pure ?_
      split
      · exact he.asPure
      · exact he
  · refine finds_iterate (fun left _ => ?_) hfirst
    refine finds_of_yields fun c cur more after hrun e he => ?_
    exact Expr.holdsLists_of_isComposite (yields_binaryStep above left c cur more after hrun e he)

theorem findsLists_unmarkedAssignment (returnTypes : Bool) :
    FindsLists source (unmarkedAssignment self returnTypes) := by
  refine finds_then fun m => finds_then fun token => finds_then fun c => ?_
  split
  · exact (closes_yieldExpression _).finds
  refine finds_then fun atOperand => ?_
  split
  · exact finds_fail
  refine finds_bind (finds_of_yields (yields_possibleArrow returnTypes)) fun arrow harrow => ?_
  split
  · exact finds_pure (Expr.holdsLists_of_isComposite (harrow _ rfl))
  refine finds_then fun atAsync => ?_
  split
  · exact Closes.finds (yields_then fun _ => yields_then fun name =>
      closes_bareArrow _ _ _ _ _)
  refine finds_bind (findsLists_binary harray hself _) fun left hleft =>
    finds_then fun atArrow => ?_
  split
  · exact (closes_bareArrow _ _ _ _ _).finds
  · exact findsLists_assignmentTail left hleft returnTypes

theorem findsLists_assignment (returnTypes : Bool) :
    FindsLists source (assignment self returnTypes) := by
  refine finds_then fun token => ?_
  refine finds_bind (findsLists_unmarkedAssignment harray hself returnTypes) fun e he =>
    finds_pure ?_
  split
  · exact he.asEffectFree
  · exact he

omit harray in
theorem findsLists_expression : FindsLists source (expression self) := by
  refine finds_then fun m => finds_bind (hself true) fun first hfirst =>
    finds_then fun atComma => ?_
  split
  · exact Closes.finds (yields_then fun _ => yields_then fun _ => yields_pure rfl)
  · exact finds_pure hfirst

end Operands

/-- An assignment holds lists only. -/
theorem findsLists_productions {source : Text} (fuel : Nat) (returnTypes : Bool) :
    FindsLists source (productions fuel (.assignment returnTypes)) := by
  induction fuel generalizing returnTypes with
  | zero => exact finds_fail
  | succ fuel ih => exact findsLists_assignment (findsLists_arrayLiteral fuel) ih returnTypes

theorem findsLists_productions_expression {source : Text} (fuel : Nat) :
    FindsLists source (productions fuel .expression) := by
  cases fuel with
  | zero => exact finds_fail
  | succ fuel => exact findsLists_expression (findsLists_productions fuel)

theorem findsInParts_holdsLists (source : Text) (fuel : Nat) :
    FindsInParts source (productions fuel) (Stmt.HoldsLists source) where
  plain _ := Stmt.holdsLists_of_isPlain
  exported _ _ _ := trivial
  effectFree _ := Stmt.HoldsLists.asEffectFree
  bindings := yields_variableStatement_of fun _ _ _ _ => trivial
  function _ _ _ := finds_of_yields (yields_then fun _ => yields_then fun _ => yields_then fun _ =>
    yields_then fun _ => yields_then fun _ => yields_then fun _ => yields_then fun _ =>
      yields_pure trivial)
  expression := (findsLists_productions_expression fuel).imp fun _ he _ => he
  assignment := (findsLists_productions fuel true).imp fun _ he _ => he
  name _ := Expr.holdsLists_ident

end Parser

variable {source : Text} {program : Program}

/-- A statement of a script holds lists only. -/
theorem Program.holdsLists_of_parse (h : Program.parse source = .ok program) :
    ∀ s ∈ program.body, s.HoldsLists source :=
  forall_of_parse (Parser.findsInParts_holdsLists source) h

/-- The names that the value of a property lists, if it is an array literal of names and holes. -/
def Property.listedNames? (source : Text) : Property → Option (List Text)
  | .pair _ _ (.array _ elements) =>
      if elements.all Expr.isListed then some (elements.filterMap (Expr.listedName? source))
      else none
  | _ => none

def Expr.listings (source : Text) : Expr → List (List Text)
  | .object _ properties => properties.filterMap (Property.listedNames? source)
  | _ => []

/-- The text of a value that lists names is a list of these. -/
theorem listTail_of_listedNames? (hparse : Program.parse source = .ok program) {s : Stmt}
    (hs : s ∈ program.body) {callee : Expr} {args : List Expr}
    (hcall : s.call? = some (callee, args)) {loc : Loc} {properties : List Property}
    (hobject : .object loc properties ∈ args) {p : Property} (hp : p ∈ properties)
    {names : List Text} (hnames : p.listedNames? source = some names) :
    ∃ body, p.valueText source = '[' :: body ∧ ListTail body names := by
  unfold Property.listedNames? at hnames
  split at hnames
  · split at hnames
    · rename_i hlisted
      cases hnames
      obtain ⟨_, _, _, _, _, rfl⟩ := Stmt.exists_of_call? hcall
      have hholds : Expr.HoldsLists source _ := Program.holdsLists_of_parse hparse _ hs
      exact hholds _ _ (.argument hobject (.value hp (.refl _))) (List.all_eq_true.1 hlisted)
    · cases hnames
  · cases hnames

end Syntax

end NgFile
