import NgFile.Proofs.ParserRules
import NgFile.Proofs.TokenLayout

/-!
# Tokens that stand in the text

The tokens that a parser leaves come of those in front of it: it goes on behind the tokens that
it has taken, and from a slash on the text is read anew.  So they stand in the text in their
order, whatever has been passed.  That goes through all of the grammar.  It is shown for the
parsers that change a cursor, and for what they are combined with; for a production it is then
found out from its parts.
-/

set_option synthInstance.maxSize 4096

namespace NgFile

namespace Syntax

namespace Parser

/-! ## Rules -/

/-- A parser that leaves tokens that come of those in front of it. -/
class Keeps {α : Type} (p : Parser α) : Prop where
  ensures : Ensures p fun c cur _ after => Leads c.source cur.rest after.rest

class SameSource (change : Context → Context) : Prop where
  source_eq : ∀ c, (change c).source = c.source

instance (limit : Context → Nat) (allowIn inAwait inYield inFunction inDecorator inAmbient
    allowConditional : Context → Bool) :
    SameSource fun c => ⟨c.source, limit c, allowIn c, inAwait c, inYield c, inFunction c,
      inDecorator c, inAmbient c, allowConditional c⟩ :=
  ⟨fun _ => rfl⟩

instance : SameSource nested := ⟨fun _ => rfl⟩

instance : SameSource inField := ⟨fun _ => rfl⟩

instance (isAsync isGenerator : Bool) : SameSource (inFunction isAsync isGenerator) :=
  ⟨fun _ => rfl⟩

instance (isAsync isGenerator : Bool) (inside : Context → Bool) :
    SameSource fun c => { inFunction isAsync isGenerator c with inFunction := inside c } :=
  ⟨fun _ => rfl⟩

instance (isDeclare : Bool) : SameSource (inModule isDeclare) := ⟨fun _ => rfl⟩

section Rules

variable {α β : Type} {p : Parser α} {f : α → Parser β}

theorem Keeps.bind [Keeps p] (hf : ∀ a, Keeps (f a)) : Keeps (p >>= f) := by
  refine ⟨fun c cur b after h => ?_⟩
  obtain ⟨a, mid, hrun, hrest⟩ := exists_of_bind h
  exact (Keeps.ensures c cur a mid hrun).trans ((hf a).ensures c mid b after hrest)

/-- For a parser in front whose parts have to be told apart first. -/
theorem Keeps.andThen (_ : Keeps p) (hf : ∀ a, Keeps (f a)) : Keeps (p >>= f) :=
  .bind hf

instance (priority := low) [hp : Still p] : Keeps p := by
  refine ⟨fun c cur a after h => ?_⟩
  obtain rfl := hp.ensures c cur a after h
  exact .refl _

instance [Keeps p] [∀ a, Keeps (f a)] : Keeps (p >>= f) :=
  .bind fun _ => inferInstance

instance {condition : Prop} [Decidable condition] {q : Parser α} [Keeps p] [Keeps q] :
    Keeps (if condition then p else q) := by
  split <;> infer_instance

instance {change : Context → Context} [hchange : SameSource change] [hp : Keeps p] :
    Keeps (within change p) := by
  refine ⟨fun c cur a after h => ?_⟩
  have hleads : Leads (change c).source cur.rest after.rest := hp.ensures (change c) cur a after h
  rwa [hchange.source_eq c] at hleads

instance [hp : Keeps p] : Keeps (attempt p) := by
  refine ⟨fun c cur a after h => ?_⟩
  unfold attempt at h
  split at h
  · rename_i hrun
    cases h
    exact hp.ensures c cur _ _ hrun
  · cases h
    exact .refl _

instance {p : Parser Bool} : Still (ahead p) := by
  refine ⟨fun c cur a after h => ?_⟩
  unfold ahead at h
  split at h
  · cases h
    rfl
  · cases h
    rfl

instance {step : Parser (Option α)} [Keeps step] : Keeps (many step) := by
  have hcollect (limit : Nat) (acc : List α) : Keeps (collect step limit acc) := by
    induction limit generalizing acc with
    | zero => exact inferInstanceAs (Keeps fail)
    | succ limit ih =>
        refine .bind fun next => ?_
        cases next with
        | none => exact inferInstanceAs (Keeps (pure _))
        | some a => exact ih (a :: acc)
  exact .bind fun _ => hcollect _ _

theorem Keeps.iterate {step : α → Parser (Option α)} (hstep : ∀ a, Keeps (step a)) (a : α) :
    Keeps (iterate step a) := by
  have hrefine (limit : Nat) (a : α) : Keeps (refine step limit a) := by
    induction limit generalizing a with
    | zero => exact inferInstanceAs (Keeps fail)
    | succ limit ih =>
        refine .bind fun next => ?_
        cases next with
        | none => exact inferInstanceAs (Keeps (pure _))
        | some next => exact ih next
  exact .bind fun _ => hrefine _ _

instance {step : α → Parser (Option α)} [∀ a, Keeps (step a)] (a : α) :
    Keeps (iterate step a) :=
  .iterate (fun _ => inferInstance) a

end Rules

/-! ## Tokens -/

section Tokens

instance : Keeps advanceName := by
  refine ⟨fun c cur token after h => ?_⟩
  unfold advanceName at h
  split at h
  · cases h
  · rename_i hrest
    cases h
    rw [hrest]
    exact .pass _ (.refl _)

instance : Keeps rescanSlash := by
  refine ⟨fun c cur token after h => ?_⟩
  unfold rescanSlash at h
  split at h
  · cases h
  · rename_i hrest
    cases h
    rw [hrest]
    exact .rescan _ _ (.refl _)

instance : Keeps advance := inferInstanceAs (Keeps (_ >>= _))

instance (n : Nat) : Keeps (advanceBy n) := by
  induction n with
  | zero => exact inferInstanceAs (Keeps (pure _))
  | succ n _ => exact inferInstanceAs (Keeps (_ >>= _))

instance (p : Punct) : Keeps (eat p) := inferInstanceAs (Keeps (_ >>= _))

instance (k : Keyword) : Keeps (eatWord k) := inferInstanceAs (Keeps (_ >>= _))

instance (p : Punct) : Keeps (expect p) := inferInstanceAs (Keeps (_ >>= _))

instance (k : Keyword) : Keeps (expectWord k) := inferInstanceAs (Keeps (_ >>= _))

instance : Still atStatementEnd := inferInstanceAs (Still (_ >>= _))

instance : Keeps semicolon := inferInstanceAs (Keeps (_ >>= _))

instance {α : Type} {item : Parser α} [Keeps item] (close : Punct) :
    Keeps (commaList close item) :=
  inferInstanceAs (Keeps (_ >>= _))

instance : Keeps bindingName := by
  refine .bind fun _ => .bind fun _ => .bind fun _ => ?_
  split
  · infer_instance
  · split <;> infer_instance

instance : Keeps anyName := by
  refine .bind fun _ => .bind fun _ => ?_
  split <;> infer_instance

instance : Keeps stringLiteral := by
  refine .bind fun _ => ?_
  split <;> infer_instance

instance : Keeps privateName := by
  refine .bind fun _ => .bind fun _ => ?_
  split <;> infer_instance

instance : Keeps literalKey := by
  refine .bind fun _ => .bind fun _ => ?_
  split <;> infer_instance

instance : Keeps dottedName := inferInstanceAs (Keeps (_ >>= _))

end Tokens

/-! ## Keys and patterns -/

variable {self : Productions} [∀ goal, Keeps (self goal)]

section Patterns

instance : Keeps (nestedAssignment self) := inferInstanceAs (Keeps (within _ _))

instance : Keeps (nestedExpression self) := inferInstanceAs (Keeps (within _ _))

instance : Keeps (propertyKey self) := inferInstanceAs (Keeps (_ >>= _))

instance : Keeps (classKey self) := by
  refine .bind fun _ => ?_
  split <;> infer_instance

instance : Keeps (defaultValue self) := inferInstanceAs (Keeps (_ >>= _))

instance : Keeps (patternWithDefault self) := by
  refine .bind fun _ => .bind fun _ => .bind fun _ => ?_
  split <;> infer_instance

instance : Keeps (patternPart self) := by
  refine .bind fun _ => .bind fun _ => .bind fun _ => ?_
  split <;> infer_instance

instance {inner : Parser Pattern} [Keeps inner] (close : Punct) :
    Keeps (patternRest close inner) :=
  inferInstanceAs (Keeps (_ >>= _))

instance : Keeps (bindingPattern self) := inferInstanceAs (Keeps (_ >>= _))

end Patterns

/-! ## Functions -/

section Functions

instance : Keeps (decorators self) := inferInstanceAs (Keeps (many _))

instance (ms : Modifiers) : Keeps (modifierStep ms) := by
  refine .bind fun _ => ?_
  split
  · infer_instance
  · refine .bind fun _ => ?_
    split
    · infer_instance
    split
    · infer_instance
    split
    · infer_instance
    · refine .bind fun _ => ?_
      split <;> infer_instance

instance : Keeps modifiers := inferInstanceAs (Keeps (iterate _ _))

instance : Keeps memberModifiers := by
  refine .iterate (fun ms => .bind fun _ => .bind fun _ => ?_) _
  split
  · infer_instance
  · refine .bind fun _ => ?_
    split <;> infer_instance

instance : Keeps <| typeAnnotation self := inferInstanceAs (Keeps (_ >>= _))

instance : Keeps <| returnAnnotation self := inferInstanceAs (Keeps (_ >>= _))

instance : Keeps typeParamModifiers := by
  refine .iterate (fun flags => ?_) _
  split
  infer_instance

instance : Keeps (typeParam self) := by
  refine .bind fun flags => ?_
  split
  infer_instance

instance : Keeps (typeParams self) := inferInstanceAs (Keeps (_ >>= _))

instance : Keeps (thisParam self) := inferInstanceAs (Keeps (_ >>= _))

instance : Keeps restEnd := inferInstanceAs (Keeps (_ >>= _))

instance (role : FunctionRole) : Keeps (param self role) := inferInstanceAs (Keeps (_ >>= _))

instance (role : FunctionRole) : Keeps (params self role) := inferInstanceAs (Keeps (_ >>= _))

instance : Keeps (statementsToBrace self) := inferInstanceAs (Keeps (many _))

instance : Keeps (bracedStatements self) := inferInstanceAs (Keeps (_ >>= _))

instance (isAsync isGenerator : Bool) (role : FunctionRole) (name : Option Name)
    (need : BodyNeed) : Keeps (functionTail self isAsync isGenerator role name need) :=
  inferInstanceAs (Keeps (_ >>= _))

end Functions

/-! ## Types -/

section Types

instance : Keeps (typeArgs self) := inferInstanceAs (Keeps (_ >>= _))

instance : Keeps (typeArgsOnLine self) := inferInstanceAs (Keeps (_ >>= _))

instance : Keeps (possibleTypeArgs self) := inferInstanceAs (Keeps (_ >>= _))

instance : Keeps (typeReference self) := inferInstanceAs (Keeps (_ >>= _))

instance : Keeps typeMemberEnd := inferInstanceAs (Keeps (_ >>= _))

instance : Still atIndexer := inferInstanceAs (Still (_ >>= _))

instance : Keeps (indexerTail self) := inferInstanceAs (Keeps (_ >>= _))

instance (k : Keyword) : Still (atAccessor k) := inferInstanceAs (Still (_ >>= _))

instance : Keeps (callSignature self) := inferInstanceAs (Keeps (_ >>= _))

instance (m : Mark) (kind : MethodKind) : Keeps (accessorSignature self m kind) :=
  inferInstanceAs (Keeps (_ >>= _))

instance (m : Mark) (ms : Modifiers) : Keeps (methodOrPropertySignature self m ms) :=
  inferInstanceAs (Keeps (_ >>= _))

instance : Keeps (typeMember self) := inferInstanceAs (Keeps (_ >>= _))

instance : Keeps (typeMembers self) := inferInstanceAs (Keeps (_ >>= _))

instance (isMark : Token → Bool) : Keeps (mappedModifier isMark) :=
  inferInstanceAs (Keeps (_ >>= _))

instance : Keeps (mappedType self) := inferInstanceAs (Keeps (_ >>= _))

instance : Still atNamedElement := inferInstanceAs (Still (_ >>= _))

instance : Keeps (tupleElement self) := inferInstanceAs (Keeps (_ >>= _))

instance : Keeps (tupleType self) := inferInstanceAs (Keeps (_ >>= _))

instance {α : Type} {inner : Parser α} [Keeps inner] : Keeps (templateTail inner) := by
  refine .andThen (.iterate (fun state => ?_) _) fun _ => inferInstance
  split
  split
  · refine .bind fun _ => .bind fun _ => ?_
    split <;> infer_instance
  · infer_instance

instance {α : Type} {inner : Parser α} [Keeps inner] : Keeps (anyTemplate inner) := by
  refine .bind fun _ => ?_
  split <;> infer_instance

instance {α : Type} {inner : Parser α} [Keeps inner] : Keeps (template inner) :=
  inferInstanceAs (Keeps (_ >>= _))

instance : Keeps (importTypeTail self) := inferInstanceAs (Keeps (_ >>= _))

instance : Keeps (typeQuery self) := inferInstanceAs (Keeps (_ >>= _))

instance : Keeps (predicateTail self) := inferInstanceAs (Keeps (_ >>= _))

instance : Keeps (assertsPredicate self) := inferInstanceAs (Keeps (_ >>= _))

instance : Keeps literalType := by
  refine .bind fun _ => .bind fun isNegative => ?_
  split
  · refine .bind fun _ => ?_
    split <;> infer_instance
  · infer_instance

instance : Still atMappedType := inferInstanceAs (Still (ahead _))

instance : Keeps (plainType self) := by
  refine .bind fun _ => .bind fun _ => ?_
  split
  case h_9 =>
    refine .bind fun _ => .bind fun _ => ?_
    split <;> infer_instance
  all_goals infer_instance

instance : Keeps (suffixedType self) := inferInstanceAs (Keeps (within _ _))

instance : Keeps (inferBound self) := inferInstanceAs (Keeps (_ >>= _))

instance : Keeps (prefixedType self) := by
  refine .bind fun _ => ?_
  extract_lets operator
  split <;> infer_instance

instance {operand : Parser Ty} [Keeps operand] (separator : Punct) (build : List Ty → Ty) :
    Keeps (joinedTypes separator build operand) :=
  inferInstanceAs (Keeps (_ >>= _))

instance : Still (atFunctionType self) := inferInstanceAs (Still (ahead _))

instance : Keeps (functionType self) := inferInstanceAs (Keeps (_ >>= _))

instance (isAbstract : Bool) : Keeps (constructType self isAbstract) :=
  inferInstanceAs (Keeps (_ >>= _))

instance : Keeps (type self) := inferInstanceAs (Keeps (_ >>= _))

instance : Keeps (returnType self) := inferInstanceAs (Keeps (_ >>= _))

end Types

/-! ## Classes -/

section Classes

instance : Keeps (fieldValue self) := inferInstanceAs (Keeps (_ >>= _))

instance (ms : Modifiers) (key : Key) (isField : Bool) : Still (checkKey ms key isField) := by
  unfold checkKey
  split
  · infer_instance
  · split <;> infer_instance

instance (m : Mark) (decorators : List Expr) (ms : Modifiers) (kind : MethodKind) :
    Keeps (classAccessor self m decorators ms kind) :=
  inferInstanceAs (Keeps (_ >>= _))

instance (m : Mark) (ms : Modifiers) (key : Key) : Keeps (constructorMember self m ms key) :=
  inferInstanceAs (Keeps (_ >>= _))

instance (m : Mark) (decorators : List Expr) (ms : Modifiers) (isAsync isGenerator : Bool)
    (key : Key) (optional : Bool) :
    Keeps (classMethod self m decorators ms isAsync isGenerator key optional) :=
  inferInstanceAs (Keeps (_ >>= _))

instance (m : Mark) (decorators : List Expr) (ms : Modifiers) (key : Key) (optional : Bool) :
    Keeps (classField self m decorators ms key optional) :=
  inferInstanceAs (Keeps (_ >>= _))

instance : Still atAsyncMethod := inferInstanceAs (Still (_ >>= _))

instance (m : Mark) (decorators : List Expr) (ms : Modifiers) (isAsync : Bool) :
    Keeps (methodOrField self m decorators ms isAsync) :=
  inferInstanceAs (Keeps (_ >>= _))

instance (m : Mark) : Keeps (staticBlock self m) := inferInstanceAs (Keeps (_ >>= _))

instance : Keeps (classMember self) := inferInstanceAs (Keeps (_ >>= _))

instance : Keeps (classMembers self) := inferInstanceAs (Keeps (_ >>= _))

instance : Keeps (baseClass self) := by
  refine .bind fun _ => ?_
  split
  · refine .bind fun _ => ?_
    split <;> infer_instance
  · infer_instance

instance : Keeps (baseType self) := inferInstanceAs (Keeps (_ >>= _))

instance : Keeps (baseTypes self) := inferInstanceAs (Keeps (_ >>= _))

instance (decorators : List Expr) (isAbstract isDeclare : Bool) :
    Keeps (classTail self decorators isAbstract isDeclare) :=
  inferInstanceAs (Keeps (_ >>= _))

end Classes

/-! ## Literals -/

section Literals

instance (m : Mark) : Keeps (noteDefault m) :=
  ⟨fun _ _ _ _ h => by cases h; exact .refl _⟩

instance (m : Mark) : Keeps (noteSpreadComma m) :=
  ⟨fun _ _ _ _ h => by cases h; exact .refl _⟩

instance (e : Expr) : Keeps (coverTarget e) := by
  refine ⟨fun c cur p after h => ?_⟩
  unfold coverTarget at h
  split at h
  · cases h
    exact .refl _
  · cases h

instance (e : Expr) : Still (coverReference e) := by
  refine ⟨fun c cur e' after h => ?_⟩
  unfold coverReference at h
  split at h
  · cases h
    rfl
  · cases h

instance : Keeps regexLiteral := by
  refine .bind fun _ => .bind fun _ => .bind fun _ => ?_
  split <;> infer_instance

instance : Keeps (spreadOrAssignment self) := inferInstanceAs (Keeps (_ >>= _))

instance : Keeps (arrayLiteral self) := inferInstanceAs (Keeps (_ >>= _))

instance (m : Mark) (kind : MethodKind) (isAsync isGenerator : Bool) (key : Key) :
    Keeps (objectMethod self m kind isAsync isGenerator key) :=
  inferInstanceAs (Keeps (_ >>= _))

instance (m : Mark) (kind : MethodKind) : Keeps (objectAccessor self m kind) :=
  inferInstanceAs (Keeps (_ >>= _))

instance (m : Mark) (first : Token) (key : Key) : Keeps (pairOrShorthand self m first key) := by
  refine .bind fun isPair => ?_
  split
  · infer_instance
  · refine .bind fun _ => ?_
    split <;> infer_instance

instance : Keeps (property self) := inferInstanceAs (Keeps (_ >>= _))

instance : Keeps (objectLiteral self) := by
  refine .bind fun _ => .bind fun _ => .bind fun _ => .bind fun _ => ?_
  split <;> infer_instance

instance : Keeps (parenthesized self) := inferInstanceAs (Keeps (_ >>= _))

instance (isAsync isGenerator : Bool) : Keeps (functionName isAsync isGenerator) :=
  inferInstanceAs (Keeps (within _ _))

instance : Keeps (functionExpression self) := inferInstanceAs (Keeps (_ >>= _))

instance : Keeps (classExpression self) := inferInstanceAs (Keeps (_ >>= _))

end Literals

/-! ## Links -/

section Links

instance : Keeps (arguments self) := inferInstanceAs (Keeps (_ >>= _))

instance (m : Mark) (phase : ImportPhase) : Keeps (importCall self m phase) :=
  inferInstanceAs (Keeps (_ >>= _))

instance : Keeps (importExpression self) := inferInstanceAs (Keeps (_ >>= _))

instance : Keeps (typeArgsInExpression self) := inferInstanceAs (Keeps (_ >>= _))

instance (m : Mark) (e : Expr) (optional : Bool) : Keeps (memberName m e optional) := by
  refine .bind fun _ => ?_
  split <;> infer_instance

instance (m : Mark) (e : Expr) (optional : Bool) : Keeps (memberIndex self m e optional) :=
  inferInstanceAs (Keeps (_ >>= _))

instance (m : Mark) (allowOptional : Bool) (links : Links) :
    Keeps (memberLink self m allowOptional links) := by
  unfold memberLink
  refine .bind fun _ => .bind fun next => ?_
  split
  · infer_instance
  · split
    · infer_instance
    split
    · infer_instance
    · split <;> infer_instance
  · infer_instance
  · infer_instance
  · infer_instance
  · refine .bind fun _ => ?_
    split <;> infer_instance
  · infer_instance

instance (m : Mark) (e : Expr) (optional : Bool) (typeArgs : List Ty) :
    Keeps (callLink self m e optional typeArgs) := by
  unfold callLink
  split
  infer_instance

instance (m : Mark) (links : Links) : Keeps (link self m links) := by
  refine .bind fun _ => ?_
  split <;> infer_instance

instance (tokens : List Token) : Still (lastComments tokens) := by
  refine ⟨fun c cur comments after h => ?_⟩
  unfold lastComments at h
  split at h
  · cases h
    rfl
  · cases h
    rfl

instance : Keeps (newExpression self) := by
  refine .bind fun _ => .bind fun _ => .bind fun hasDot => ?_
  split
  · infer_instance
  · refine .bind fun _ => .bind fun _ => .bind fun _ => .bind fun _ => ?_
    split
    split
    split <;> infer_instance

instance (k : Keyword) : Keeps (keywordOperand self k) := by
  refine .bind fun _ => .bind fun _ => ?_
  split <;> infer_instance

instance : Keeps (primary self) := by
  refine .bind fun _ => .bind fun _ => ?_
  split <;> infer_instance

instance : Keeps (leftHandSide self) := inferInstanceAs (Keeps (_ >>= _))

end Links

/-! ## Operators and assignments -/

section Assignments

instance : Keeps (updateExpression self) := inferInstanceAs (Keeps (_ >>= _))

instance : Keeps (unary self) := by
  refine .bind fun _ => .bind fun _ => ?_
  split <;> infer_instance

instance (m : Mark) (above : Nat) (left : Expr) : Keeps (binaryStep self m above left) := by
  refine .bind fun _ => .bind fun _ => .bind fun _ => ?_
  split
  · infer_instance
  · split <;> infer_instance

instance (above : Nat) : Keeps (binary self above) := by
  refine .bind fun _ => .bind fun _ => .andThen ?_ fun _ => inferInstance
  split <;> infer_instance

instance : Keeps (arrowHead self) := inferInstanceAs (Keeps (_ >>= _))

instance (head : ArrowHead) (returnTypes : Bool) : Keeps (arrowBody self head returnTypes) := by
  unfold arrowBody
  extract_lets build inBody
  have : SameSource inBody := ⟨fun _ => rfl⟩
  infer_instance

instance (returnTypes : Bool) : Keeps (possibleArrow self returnTypes) := by
  refine .bind fun _ => ?_
  split
  · infer_instance
  · infer_instance
  · refine .bind fun _ => ?_
    split <;> infer_instance

instance (m : Mark) (isAsync : Bool) (name : Name) (returnTypes : Bool) :
    Keeps (bareArrow self m isAsync name returnTypes) :=
  inferInstanceAs (Keeps (_ >>= _))

instance : Keeps (yieldExpression self) := inferInstanceAs (Keeps (_ >>= _))

instance (m : Mark) (left : Expr) (returnTypes : Bool) :
    Keeps (assignmentTail self m left returnTypes) := by
  refine .bind fun _ => ?_
  split
  · refine .andThen ?_ fun _ => inferInstance
    split <;> infer_instance
  · infer_instance

instance (returnTypes : Bool) : Keeps (unmarkedAssignment self returnTypes) := by
  refine .bind fun _ => .bind fun _ => .bind fun _ => ?_
  split
  · infer_instance
  refine .bind fun _ => ?_
  split
  · infer_instance
  refine .bind fun _ => ?_
  split
  · infer_instance
  refine .bind fun _ => ?_
  split
  · infer_instance
  refine .bind fun _ => .bind fun _ => ?_
  split <;> infer_instance

instance (returnTypes : Bool) : Keeps (assignment self returnTypes) :=
  inferInstanceAs (Keeps (_ >>= _))

instance : Keeps (expression self) := inferInstanceAs (Keeps (_ >>= _))

end Assignments

/-! ## Imports and exports -/

section Modules

instance : Keeps moduleName := by
  refine .bind fun _ => .bind fun _ => ?_
  split <;> infer_instance

instance (first : ModuleName) (isType : Bool) : Keeps (bindingAlias first isType) :=
  inferInstanceAs (Keeps (_ >>= _))

instance : Keeps moduleBinding := inferInstanceAs (Keeps (_ >>= _))

instance (isType : Bool) : Keeps (moduleBindings isType) := inferInstanceAs (Keeps (_ >>= _))

instance : Keeps importAttribute := inferInstanceAs (Keeps (_ >>= _))

instance : Keeps moduleSource := by
  refine .bind fun _ => .bind fun _ => ?_
  split <;> infer_instance

instance (isType : Bool) (default : Option Name) : Keeps (importClause isType default) :=
  inferInstanceAs (Keeps (_ >>= _))

instance (m : Mark) (isType : Bool) (phase : ImportPhase) (default : Option Name) :
    Keeps (importTail m isType phase default) := by
  refine .andThen ?_ fun _ => inferInstance
  split <;> infer_instance

instance (m : Mark) (isType : Bool) (name : Name) : Keeps (importEquals m isType name) :=
  inferInstanceAs (Keeps (_ >>= _))

instance : Still atTypeImport := inferInstanceAs (Still (_ >>= _))

instance : Keeps importPhase := inferInstanceAs (Keeps (_ >>= _))

instance : Keeps importDeclaration := by
  refine .bind fun _ => .bind fun _ => .bind fun _ => ?_
  split <;> infer_instance

instance (m : Mark) (isType : Bool) : Keeps (exportAll m isType) :=
  inferInstanceAs (Keeps (_ >>= _))

instance (m : Mark) (isType : Bool) : Keeps (exportNames m isType) :=
  inferInstanceAs (Keeps (_ >>= _))

end Modules

/-! ## Statements -/

section Statements

instance : Keeps (branch self) := inferInstanceAs (Keeps (self _))

instance : Keeps (condition self) := inferInstanceAs (Keeps (_ >>= _))

instance : Keeps (block self) := inferInstanceAs (Keeps (_ >>= _))

instance : Keeps (declarator self) := inferInstanceAs (Keeps (_ >>= _))

instance : Keeps (declarators self) := inferInstanceAs (Keeps (_ >>= _))

instance (inLoop : Bool) : Still (usingKind? inLoop) := inferInstanceAs (Still (_ >>= _))

instance (kind : VariableKind) : Keeps (passKind kind) := inferInstanceAs (Keeps (advanceBy _))

instance (m : Mark) (place : StatementPlace) (kind : VariableKind) (isDeclare : Bool) :
    Keeps (variableStatement self m place kind isDeclare) :=
  inferInstanceAs (Keeps (_ >>= _))

instance (m : Mark) (start : Option Stmt) : Keeps (forTail self m start) :=
  inferInstanceAs (Keeps (_ >>= _))

instance (m : Mark) (left : Stmt) : Keeps (forInTail self m left) :=
  inferInstanceAs (Keeps (_ >>= _))

instance (m : Mark) (isAwait : Bool) (left : Stmt) : Keeps (forOfTail self m isAwait left) :=
  inferInstanceAs (Keeps (_ >>= _))

instance (m : Mark) (isAwait : Bool) (kind : VariableKind) :
    Keeps (forVariables self m isAwait kind) :=
  inferInstanceAs (Keeps (_ >>= _))

instance (m : Mark) (isAwait : Bool) : Keeps (forExpression self m isAwait) :=
  inferInstanceAs (Keeps (_ >>= _))

instance : Keeps (forStatement self) := by
  refine .bind fun _ => .bind fun _ => .bind fun _ => .bind fun _ => .bind fun _ =>
    .bind fun _ => .bind fun _ => ?_
  split
  · infer_instance
  · refine .bind fun _ => .bind fun _ => .andThen ?_ fun kind => ?_
    · split <;> infer_instance
    · split <;> infer_instance

instance : Keeps (ifStatement self) := inferInstanceAs (Keeps (_ >>= _))

instance : Keeps (whileStatement self) := inferInstanceAs (Keeps (_ >>= _))

instance : Keeps (doStatement self) := inferInstanceAs (Keeps (_ >>= _))

instance (k : Keyword) (build : Loc → Option Name → Stmt) : Keeps (jump k build) :=
  inferInstanceAs (Keeps (_ >>= _))

instance : Keeps (returnStatement self) := inferInstanceAs (Keeps (_ >>= _))

instance : Keeps (throwStatement self) := inferInstanceAs (Keeps (_ >>= _))

instance : Keeps (withStatement self) := inferInstanceAs (Keeps (_ >>= _))

instance : Keeps (caseBody self) := inferInstanceAs (Keeps (many _))

instance : Keeps (switchCase self) := inferInstanceAs (Keeps (_ >>= _))

instance : Keeps (switchStatement self) := inferInstanceAs (Keeps (_ >>= _))

instance : Keeps (catchClause self) := inferInstanceAs (Keeps (_ >>= _))

instance : Keeps (tryStatement self) := inferInstanceAs (Keeps (_ >>= _))

end Statements

/-! ## Declarations -/

section Declarations

instance (m : Mark) (place : StatementPlace) (isDeclare needsName : Bool) :
    Keeps (functionDeclaration self m place isDeclare needsName) :=
  inferInstanceAs (Keeps (_ >>= _))

instance (m : Mark) (decorators : List Expr) (isAbstract isDeclare : Bool) :
    Keeps (classDeclaration self m decorators isAbstract isDeclare) :=
  inferInstanceAs (Keeps (_ >>= _))

instance (m : Mark) (isDeclare : Bool) : Keeps (typeAlias self m isDeclare) :=
  inferInstanceAs (Keeps (_ >>= _))

instance (m : Mark) (isDeclare : Bool) : Keeps (interfaceDeclaration self m isDeclare) :=
  inferInstanceAs (Keeps (_ >>= _))

instance : Keeps (enumMember self) := inferInstanceAs (Keeps (_ >>= _))

instance (m : Mark) (isDeclare : Bool) : Keeps (enumDeclaration self m isDeclare) :=
  inferInstanceAs (Keeps (_ >>= _))

instance : Keeps (moduleBlock self) := inferInstanceAs (Keeps (_ >>= _))

instance (m : Mark) (isDeclare : Bool) : Keeps (moduleDeclaration self m isDeclare) := by
  unfold moduleDeclaration
  extract_lets body
  refine .bind fun isGlobal => ?_
  split
  · infer_instance
  · refine .bind fun _ => .bind fun _ => .bind fun _ => ?_
    split <;> infer_instance

instance : Keeps declarationWords := by
  refine .iterate (fun words => ?_) _
  split
  infer_instance

instance (m : Mark) (decorators : List Expr) : Keeps (declaration self m decorators) := by
  refine .bind fun words => ?_
  split
  refine .bind fun _ => .bind fun _ => .bind fun _ => ?_
  split
  · split
    case h_10 =>
      split
      · infer_instance
      · split <;> infer_instance
    all_goals infer_instance
  · infer_instance

instance {p : Parser Stmt} [Keeps p] : Keeps (markedStatement p) :=
  inferInstanceAs (Keeps (_ >>= _))

instance (m : Mark) (outer : List Expr) : Keeps (exportDefault self m outer) :=
  inferInstanceAs (Keeps (_ >>= _))

instance (m : Mark) (outer : List Expr) : Keeps (exportedDeclaration self m outer) :=
  inferInstanceAs (Keeps (_ >>= _))

instance (outer : List Expr) : Keeps (exportDeclaration self outer) :=
  inferInstanceAs (Keeps (_ >>= _))

instance : Keeps (expressionStatement self) := by
  refine .bind fun _ => .bind fun _ => .bind fun _ => ?_
  split <;> infer_instance

instance (place : StatementPlace) : Keeps (letStatement self place) :=
  inferInstanceAs (Keeps (_ >>= _))

instance (place : StatementPlace) : Keeps (decoratedStatement self place) :=
  inferInstanceAs (Keeps (_ >>= _))

instance (place : StatementPlace) (k : Keyword) : Keeps (keywordStatement self place k) := by
  refine .bind fun _ => .bind fun _ => ?_
  split
  case h_21 | h_22 =>
    refine .bind fun _ => ?_
    split <;> infer_instance
  all_goals infer_instance

instance (place : StatementPlace) : Keeps (statement self place) := by
  refine .bind fun _ => .andThen (.bind fun _ => .bind fun _ => ?_) fun _ => inferInstance
  split <;> infer_instance

end Declarations

/-! ## Whole scripts -/

instance : Keeps (topStatements self) := inferInstanceAs (Keeps (many _))

instance (fuel : Nat) : ∀ goal, Keeps (productions fuel goal) := by
  induction fuel with
  | zero => exact fun _ => inferInstanceAs (Keeps fail)
  | succ fuel ih =>
      intro goal
      unfold productions
      split <;> infer_instance

end Parser

end Syntax

end NgFile
