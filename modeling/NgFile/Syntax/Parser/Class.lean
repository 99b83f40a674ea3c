import NgFile.Syntax.Parser.Type

/-!
# Classes

Class bodies and the clauses in front of them.
-/

namespace NgFile

namespace Syntax

def Key.written? : Key → Option Text
  | .name n => some n.text
  | .literal (.string _ value) => some value.text
  | _ => none

/-- Whether an accessor has the parameters that it must have; a setter has no result. -/
def Func.fitsAccessor (f : Func) (kind : MethodKind) : Bool :=
  let params := f.params.filter fun p => !p.isThis
  match kind with
  | .getter => params.isEmpty
  | .setter => params.length == 1 && (params.all fun p => !p.isRest) && f.returnType.isNone
  | _ => true

def Modifiers.fitMethod (ms : Modifiers) : Bool :=
  !ms.isDeclare && !ms.isReadonly

/-- Whether a field may have the modifiers; one with accessors is neither declared nor read-only. -/
def Modifiers.fitField (ms : Modifiers) : Bool :=
  !ms.isAccessor || (!ms.isDeclare && !ms.isReadonly)

/-- Whether a constructor may have the modifiers: only how far it can be seen. -/
def Modifiers.fitConstructor (ms : Modifiers) : Bool :=
  ms == { Modifiers.none with accessibility := ms.accessibility }

namespace Parser

def inField (c : Context) : Context :=
  { c with allowIn := true, inAwait := false, inYield := false, inDecorator := false }

def fieldValue (self : Productions) : Parser (Option Expr) := do
  if ← eat .equal then
    pure (some (← within inField (self (.assignment true))))
  else pure none

def checkKey (ms : Modifiers) (key : Key) (isField : Bool) : Parser Unit := do
  match key with
  | .privateName n => require (n.text != "constructor".toList && ms.accessibility.isNone)
  | key =>
      match key.written? with
      | some text =>
          require (!(isField && text == "constructor".toList))
          require (!(ms.isStatic && text == "prototype".toList))
      | none => pure ()

def classAccessor (self : Productions) (m : Mark) (decorators : List Expr) (ms : Modifiers)
    (kind : MethodKind) : Parser Member := do
  let _ ← advance
  let key ← classKey self
  checkKey ms key false
  require (ms.fitMethod && (ms.isStatic || key.written? != some "constructor".toList))
  let f ← functionTail self false false .method none .orEnd
  require (f.fitsAccessor kind)
  require (!(ms.isAbstract && f.hasBody) && (decorators.isEmpty || f.hasBody))
  pure (.method (← since m) decorators ms kind key false f)

/-- A constructor from its parameters on; it has no decorators and no type parameters. -/
def constructorMember (self : Productions) (m : Mark) (ms : Modifiers) (key : Key) :
    Parser Member := do
  require ms.fitConstructor
  let f ← functionTail self false false .constructor none .orEnd
  require f.typeParams.isEmpty
  pure (.method (← since m) [] ms .constructor key false f)

/-- A method from after its key on; one without a body has no decorators. -/
def classMethod (self : Productions) (m : Mark) (decorators : List Expr) (ms : Modifiers)
    (isAsync isGenerator : Bool) (key : Key) (optional : Bool) : Parser Member := do
  checkKey ms key false
  require ms.fitMethod
  let f ← functionTail self isAsync isGenerator .method none .orEnd
  require (!(ms.isAbstract && f.hasBody) && (decorators.isEmpty || f.hasBody))
  pure (.method (← since m) decorators ms .method key optional f)

def classField (self : Productions) (m : Mark) (decorators : List Expr) (ms : Modifiers)
    (key : Key) (optional : Bool) : Parser Member := do
  checkKey ms key true
  require (ms.fitField && !(ms.isAccessor && optional))
  let definite ← (do if optional then pure false else eat .bang)
  let type ← typeAnnotation self
  let value ← fieldValue self
  require (!(ms.isAbstract && value.isSome))
  semicolon
  pure (.field (← since m) decorators ms key optional definite type value)

/-- Whether `async` stands in front of the key of a method, on its line. -/
def atAsyncMethod : Parser Bool := do
  let token ← peek
  let next ← peekAhead 1
  pure (isWord .kwAsync token && (beginsKey next || isPunct .star next) && next.gap != .newline)

def methodOrField (self : Productions) (m : Mark) (decorators : List Expr) (ms : Modifiers)
    (isAsync : Bool) : Parser Member := do
  let isGenerator ← eat .star
  let key ← classKey self
  let optional ← eat .question
  let token ← peek
  let isCalled := isPunct .parenOpen token || isPunct .less token
  if isCalled && !ms.isStatic && key.written? == some "constructor".toList then
    require (!isAsync && !isGenerator && !optional && decorators.isEmpty)
    constructorMember self m ms key
  else if isAsync || isGenerator || isCalled then
    classMethod self m decorators ms isAsync isGenerator key optional
  else classField self m decorators ms key optional

def staticBlock (self : Productions) (m : Mark) : Parser Member := do
  let _ ← advance
  let (statements, closing) ←
    within (fun c => { inFunction true false c with inFunction := false }) (bracedStatements self)
  pure (.staticBlock (← since m) statements closing)

def classMember (self : Productions) : Parser Member := do
  let m ← mark
  let decorators ← decorators self
  let (ms, isAsync) ← memberModifiers
  let isGetter ← atAccessor .kwGet
  let isSetter ← atAccessor .kwSet
  if isWord .kwStatic (← peek) && isPunct .braceOpen (← peekAhead 1) then
    require (decorators.isEmpty && ms == .none && !isAsync)
    staticBlock self m
  else if isGetter || isSetter then
    require (!isAsync)
    classAccessor self m decorators ms (if isGetter then .getter else .setter)
  else if ← atIndexer then
    require (decorators.isEmpty && fitsIndexer ms && !isAsync)
    let (param, keyType, type) ← indexerTail self
    typeMemberEnd
    pure (.indexer (← since m) ms param keyType type)
  else
    within (fun c => { c with inAmbient := c.inAmbient || ms.isDeclare })
      (methodOrField self m decorators ms isAsync)

/-- The members of a class between braces; a semicolon alone is no member. -/
def classMembers (self : Productions) : Parser (List Member) := do
  expect .braceOpen
  let members ← many do
    if ← eat .semicolon then pure (some none)
    else if ← atPunct .braceClose then pure none
    else pure (some (some (← classMember self)))
  expect .braceClose
  pure (members.filterMap id)

def baseClass (self : Productions) : Parser (Option Expr × List Ty) := do
  if ← eatWord .kwExtends then
    let e ← self .leftHandSide
    match e with
    | .instantiation _ inner args => pure (some inner, args)
    | e =>
        pure (some e, ← possibleTypeArgs self)
  else pure (none, [])

def baseType (self : Productions) : Parser Ty := do
  let name ← dottedName
  pure (.reference name (← possibleTypeArgs self))

def baseTypes (self : Productions) : Parser (List Ty) := do
  let first ← baseType self
  let more ← many do
    if ← eat .comma then pure (some (← baseType self)) else pure none
  pure (first :: more)

def classTail (self : Productions) (decorators : List Expr) (isAbstract isDeclare : Bool) :
    Parser Class := do
  expectWord .kwClass
  let token ← peek
  let name ← (do
    if isName token && !isWord .kwImplements token then pure (some (← bindingName))
    else pure none)
  let typeParams ← typeParams self
  let (base, baseTypeArgs) ← baseClass self
  let implemented ← (do
    if ← eatWord .kwImplements then baseTypes self else pure [])
  let members ← within (fun c => { c with inAmbient := c.inAmbient || isDeclare })
    (classMembers self)
  pure (.mk decorators isAbstract isDeclare name typeParams base baseTypeArgs implemented members)

end Parser

end Syntax

end NgFile
