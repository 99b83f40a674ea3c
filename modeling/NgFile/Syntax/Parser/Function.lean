import NgFile.Syntax.Parser.Pattern

/-!
# Functions

Parameters, type parameters and bodies, as they are shared by functions, methods,
arrow functions and function types.
-/

namespace NgFile

namespace Syntax

namespace Parser

def decorators (self : Productions) : Parser (List Expr) :=
  many do
    if ← eat .at then
      let e ← within (fun c => { c with inDecorator := true }) (self .leftHandSide)
      pure (some e)
    else pure none

def followsModifier (token : Token) : Bool :=
  beginsKey token || isPunct .braceOpen token || isPunct .star token || isPunct .ellipsis token

/-- The modifiers with one more of them; none if it is there already or no modifier. -/
def Modifiers.with? (ms : Modifiers) (k : Keyword) : Option Modifiers :=
  let access (a : Accessibility) : Option Modifiers :=
    if ms.accessibility.isSome then none else some { ms with accessibility := some a }
  match k with
  | .kwDeclare => if ms.isDeclare then none else some { ms with isDeclare := true }
  | .kwPublic => access .isPublic
  | .kwProtected => access .isProtected
  | .kwPrivate => access .isPrivate
  | .kwStatic => if ms.isStatic then none else some { ms with isStatic := true }
  | .kwAbstract => if ms.isAbstract then none else some { ms with isAbstract := true }
  | .kwOverride => if ms.isOverride then none else some { ms with isOverride := true }
  | .kwReadonly => if ms.isReadonly then none else some { ms with isReadonly := true }
  | .kwAccessor => if ms.isAccessor then none else some { ms with isAccessor := true }
  | _ => none

def modifierWord? (token : Token) : Option Keyword :=
  match token.kind with
  | .keyword k _ =>
      match k with
      | .kwDeclare | .kwPublic | .kwProtected | .kwPrivate | .kwStatic | .kwAbstract
      | .kwOverride | .kwReadonly | .kwAccessor => some k
      | _ => none
  | _ => none

/--
One more modifier in front of a member or parameter.  A modifier other than `static` must be
on the line of what follows it, and a brace after `static` begins a block.
-/
def modifierStep (ms : Modifiers) : Parser (Option Modifiers) := do
  match modifierWord? (← peek) with
  | none => pure none
  | some k =>
      let next ← peekAhead 1
      if !followsModifier next then pure none
      else if k == .kwStatic && isPunct .braceOpen next then pure none
      else if k != .kwStatic && next.gap == .newline then pure none
      else
        let _ ← advance
        match Modifiers.with? ms k with
        | some more => pure (some more)
        | none => fail

def modifiers : Parser Modifiers :=
  iterate modifierStep Modifiers.none

def memberModifiers : Parser (Modifiers × Bool) :=
  iterate (fun (ms : Modifiers × Bool) => do
    let next ← peekAhead 1
    if (← atWord .kwAsync) && followsModifier next && next.gap != .newline then
      require (!ms.2)
      let _ ← advance
      pure (some (ms.1, true))
    else
      match ← modifierStep ms.1 with
      | some more => pure (some (more, ms.2))
      | none => pure none) (Modifiers.none, false)

def typeAnnotation (self : Productions) : Parser (Option Ty) := do
  if ← eat .colon then pure (some (← self .type)) else pure none

def returnAnnotation (self : Productions) : Parser (Option Ty) := do
  if ← eat .colon then pure (some (← self .returnType)) else pure none

def typeParamModifiers : Parser (Bool × Bool × Bool) :=
  iterate (fun (flags : Bool × Bool × Bool) => do
    let (isConst, isIn, isOut) := flags
    let token ← peek
    let next ← peekAhead 1
    if !isAnyWord next || (isReservedWord next && !isWord .kwIn next && !isWord .kwConst next) then
      pure none
    else if isWord .kwConst token then
      require (!isConst)
      let _ ← advance
      pure (some (true, isIn, isOut))
    else if isWord .kwIn token then
      require (!isIn)
      let _ ← advance
      pure (some (isConst, true, isOut))
    else if isWord .kwOut token then
      require (!isOut)
      let _ ← advance
      pure (some (isConst, isIn, true))
    else pure none) (false, false, false)

def typeParam (self : Productions) : Parser Ty := do
  let (isConst, isIn, isOut) ← typeParamModifiers
  let name ← bindingName
  let bound ← (do if ← eatWord .kwExtends then pure (some (← self .type)) else pure none)
  let value ← (do if ← eat .equal then pure (some (← self .type)) else pure none)
  pure (.param isConst isIn isOut name bound value)

/-- Type parameters between angle brackets, at least one, or nothing. -/
def typeParams (self : Productions) : Parser (List Ty) := do
  if ← eat .less then
    let (params, _) ← commaList .greater (typeParam self)
    expect .greater
    require (!params.isEmpty)
    pure params
  else pure []

def thisParam (self : Productions) : Parser (Option Binding) := do
  let m ← mark
  if ← eatWord .kwThis then
    let nameLoc ← since m
    let type ← typeAnnotation self
    let loc ← since m
    if ← atPunct .parenClose then pure () else expect .comma
    pure (some (.mk loc [] .none (.name ⟨nameLoc, "this"⟩) false type none))
  else pure none

inductive FunctionRole
  /-- No class. -/
  | standalone
  /-- A class; parameters may have decorators. -/
  | method
  /-- A class that it constructs; parameters may have decorators and modifiers. -/
  | constructor
  deriving DecidableEq

/-- The end of the parameters after a rest parameter; only declarations may have a comma there. -/
def restEnd : Parser Unit := do
  if isPunct .comma (← peek) && isPunct .parenClose (← peekAhead 1) then
    require (← context).inAmbient
  else require (← atPunct .parenClose)

/-- A parameter; one with modifiers is a single name. -/
def param (self : Productions) (role : FunctionRole) : Parser Binding := do
  let m ← mark
  let decorators ← decorators self
  require (role != .standalone || decorators.isEmpty)
  let modifiers ← modifiers
  require (role == .constructor || modifiers == .none)
  if ← eat .ellipsis then
    require (modifiers == .none)
    let inner ← self .pattern
    let loc ← since m
    let type ← typeAnnotation self
    restEnd
    pure (.mk (← since m) decorators modifiers (.rest loc inner) false type none)
  else
    let pattern ← self .pattern
    require (modifiers == .none || pattern.isName)
    let optional ← eat .question
    let type ← typeAnnotation self
    let value ← defaultValue self
    require (!(optional && value.isSome))
    pure (.mk (← since m) decorators modifiers pattern optional type value)

/-- Parameters between parentheses, with their place; a constructor has none for `this`. -/
def params (self : Productions) (role : FunctionRole) : Parser (Loc × List Binding) := do
  let m ← mark
  expect .parenOpen
  let first ← thisParam self
  require (role != .constructor || first.isNone)
  let (others, _) ← commaList .parenClose (param self role)
  expect .parenClose
  pure (← since m, first.toList ++ others)

def inFunction (isAsync isGenerator : Bool) (c : Context) : Context :=
  { c with
    allowIn := true, inAwait := isAsync, inYield := isGenerator, inFunction := true
    inDecorator := false }

def directive? (source : Text) : Stmt → Option Directive
  | .expression loc (.string inner _) =>
      some ⟨loc, Text.slice source (inner.start + 1) (inner.stop - 1)⟩
  | _ => none

def splitDirectives (source : Text) : List Stmt → List Directive × List Stmt
  | [] => ([], [])
  | s :: rest =>
      match directive? source s with
      | some directive =>
          let (directives, statements) := splitDirectives source rest
          (directive :: directives, statements)
      | none => ([], s :: rest)

def statementsToBrace (self : Productions) : Parser (List Stmt) :=
  many do
    if ← atPunct .braceClose then pure none
    else if (← peek).kind == .stop then fail
    else pure (some (← self (.statement .listed)))

/-- Statements between braces, and the comments before the closing brace. -/
def bracedStatements (self : Productions) : Parser (List Stmt × List Comment) := do
  expect .braceOpen
  let statements ← statementsToBrace self
  let closing := (← peek).comments
  expect .braceClose
  pure (statements, closing)

inductive BodyNeed
  /-- A body. -/
  | required
  /-- A body, or the end of a statement. -/
  | orEnd
  /-- Anything; only a type has no body and goes on after its head. -/
  | never
  deriving DecidableEq

def functionTail (self : Productions) (isAsync isGenerator : Bool) (role : FunctionRole)
    (name : Option Name) (need : BodyNeed) : Parser Func := do
  let m ← mark
  let (typeParams, (paramsLoc, params), returnType) ←
    within (fun c => { inFunction isAsync isGenerator c with inFunction := c.inFunction }) do
      let typeParams ← typeParams self
      let params ← params self role
      let returnType ← returnAnnotation self
      pure (typeParams, params, returnType)
  if need != .never && (← atPunct .braceOpen) then
    require (!(← context).inAmbient)
    let (body, closing) ← within (inFunction isAsync isGenerator) (bracedStatements self)
    let (directives, statements) := splitDirectives (← context).source body
    pure (.mk (← since m) isAsync isGenerator name typeParams paramsLoc params returnType true
      directives statements closing false)
  else
    require (need != .required)
    if need == .orEnd then semicolon
    pure (.mk (← since m) isAsync isGenerator name typeParams paramsLoc params returnType false
      [] [] [] false)

end Parser

end Syntax

end NgFile
