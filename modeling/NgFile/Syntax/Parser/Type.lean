import NgFile.Syntax.Parser.Function

/-!
# Types

Type expressions and the members of object types.
-/

namespace NgFile

namespace Syntax

namespace Parser

def dottedName : Parser (List Text) := do
  let first ← anyName
  let more ← many do
    if ← eat .dot then pure (some (← anyName).text) else pure none
  pure (first.text :: more)

def typeArgs (self : Productions) : Parser (List Ty) := do
  expect .less
  let (args, _) ← commaList .greater (self .type)
  expect .greater
  require (!args.isEmpty)
  pure args

def typeArgsOnLine (self : Productions) : Parser (List Ty) := do
  let token ← peek
  if isPunct .less token && token.gap != .newline then typeArgs self else pure []

def possibleTypeArgs (self : Productions) : Parser (List Ty) := do
  if ← atPunct .less then typeArgs self else pure []

def typeReference (self : Productions) : Parser Ty := do
  let name ← dottedName
  pure (.reference name (← typeArgsOnLine self))

def typeMemberEnd : Parser Unit := do
  if ← eat .comma then pure () else semicolon

/-- Whether a key in brackets declares an index: a name and a colon follow the bracket. -/
def atIndexer : Parser Bool := do
  pure (isPunct .bracketOpen (← peek) && isName (← peekAhead 1)
    && isPunct .colon (← peekAhead 2))

def indexerTail (self : Productions) : Parser (Text × Ty × Ty) := do
  expect .bracketOpen
  let name ← bindingName
  expect .colon
  let keyType ← self .type
  expect .bracketClose
  expect .colon
  let type ← self .type
  pure (name.text, keyType, type)

def atAccessor (k : Keyword) : Parser Bool := do
  pure (isWord k (← peek) && beginsKey (← peekAhead 1))

def callSignature (self : Productions) : Parser Func := do
  let f ← functionTail self false false .standalone none .never
  typeMemberEnd
  pure f

/-- A getter or setter of an object type from its keyword on; a setter gives nothing. -/
def accessorSignature (self : Productions) (m : Mark) (kind : MethodKind) : Parser Member := do
  let _ ← advance
  let key ← propertyKey self
  let f ← callSignature self
  require (kind != .setter || f.returnType.isNone)
  pure (.method (← since m) [] .none kind key false f)

/-- A method or a property of an object type from its key on; no method has modifiers. -/
def methodOrPropertySignature (self : Productions) (m : Mark) (ms : Modifiers) :
    Parser Member := do
  let key ← propertyKey self
  let optional ← eat .question
  let token ← peek
  if isPunct .parenOpen token || isPunct .less token then
    require (ms == .none)
    let f ← callSignature self
    pure (.method (← since m) [] ms .method key optional f)
  else
    require (ms == { Modifiers.none with isReadonly := ms.isReadonly })
    let type ← typeAnnotation self
    typeMemberEnd
    pure (.field (← since m) [] ms key optional false type none)

def fitsIndexer (ms : Modifiers) : Bool :=
  ms == { Modifiers.none with isReadonly := ms.isReadonly, isStatic := ms.isStatic }

def typeMember (self : Productions) : Parser Member := do
  let m ← mark
  let token ← peek
  let next ← peekAhead 1
  if isPunct .parenOpen token || isPunct .less token then
    let f ← callSignature self
    pure (.signature (← since m) false f)
  else if isWord .kwNew token && (isPunct .parenOpen next || isPunct .less next) then
    let _ ← advance
    let f ← callSignature self
    require (!(f.params.any Binding.isThis))
    pure (.signature (← since m) true f)
  else
    let ms ← modifiers
    let isGetter ← atAccessor .kwGet
    let isSetter ← atAccessor .kwSet
    if isGetter || isSetter then
      require (ms == .none)
      accessorSignature self m (if isGetter then .getter else .setter)
    else if ← atIndexer then
      require (fitsIndexer ms)
      let (param, keyType, type) ← indexerTail self
      typeMemberEnd
      pure (.indexer (← since m) ms param keyType type)
    else methodOrPropertySignature self m ms

def typeMembers (self : Productions) : Parser (List Member) := do
  expect .braceOpen
  let members ← many do
    if ← atPunct .braceClose then pure none
    else pure (some (← typeMember self))
  expect .braceClose
  pure members

def atMappedType : Parser Bool := ahead do
  expect .braceOpen
  let token ← peek
  if isPunct .plus token || isPunct .minus token then
    let _ ← advance
    atWord .kwReadonly
  else
    let _ ← eatWord .kwReadonly
    expect .bracketOpen
    if isName (← peek) then
      let _ ← advance
      atWord .kwIn
    else pure false

/-- A modifier of a mapped type with an optional sign in front of it. -/
def mappedModifier (isMark : Token → Bool) : Parser MappedModifier := do
  let token ← peek
  let next ← peekAhead 1
  if isMark token then
    let _ ← advance
    pure .present
  else if isPunct .plus token && isMark next then
    advanceBy 2
    pure .added
  else if isPunct .minus token && isMark next then
    advanceBy 2
    pure .removed
  else pure .absent

def mappedType (self : Productions) : Parser Ty := do
  expect .braceOpen
  let readonly ← mappedModifier (isWord .kwReadonly)
  expect .bracketOpen
  let key ← bindingName
  expectWord .kwIn
  let constraint ← self .type
  let nameType ← (do if ← eatWord .kwAs then pure (some (← self .type)) else pure none)
  expect .bracketClose
  let optional ← mappedModifier (isPunct .question)
  let type ← typeAnnotation self
  let _ ← eat .semicolon
  expect .braceClose
  pure (.mapped key.text constraint nameType readonly optional type)

def atNamedElement : Parser Bool := do
  let token ← peek
  let next ← peekAhead 1
  let third ← peekAhead 2
  pure (isAnyWord token
    && (isPunct .colon next || (isPunct .question next && isPunct .colon third)))

/-- An element of a tuple; one that is rest cannot be optional by its name. -/
def tupleElement (self : Productions) : Parser Ty := do
  let isRest ← eat .ellipsis
  if ← atNamedElement then
    let name ← anyName
    let optional ← eat .question
    require (!(isRest && optional))
    expect .colon
    let element := Ty.named name.text optional (← self .type)
    pure (if isRest then .rest element else element)
  else
    let type ← self .type
    pure (if isRest then .rest type
      else match type with
        | .marked false false inner => .optional inner
        | type => type)

structure TupleState where
  hasOptional : Bool
  hasRest : Bool

/--
Whether the elements of a tuple stand in order: after an optional one none is required, and
after a rest none is optional.
-/
def areTupleElements (state : TupleState) : List Ty → Bool
  | [] => true
  | .rest _ :: more => areTupleElements { state with hasRest := true } more
  | .optional _ :: more | .named _ true _ :: more =>
      !state.hasRest && areTupleElements { state with hasOptional := true } more
  | _ :: more => !state.hasOptional && areTupleElements state more

def tupleType (self : Productions) : Parser Ty := do
  expect .bracketOpen
  let (elements, _) ← commaList .bracketClose (tupleElement self)
  expect .bracketClose
  require (areTupleElements ⟨false, false⟩ elements)
  pure (.tuple elements)

def templateTail {α : Type} (inner : Parser α) : Parser (List (TemplateChunk × α)) := do
  let (parts, _) ← iterate (fun (state : List (TemplateChunk × α) × Bool) => do
    let (parts, more) := state
    if more then
      let a ← inner
      match (← peek).kind with
      | .template false more chunk =>
          let _ ← advance
          pure (some (parts ++ [(chunk, a)], more))
      | _ => fail
    else pure none) ([], true)
  pure parts

/-- A template's chunks and substitutions; its escapes may be malformed. -/
def anyTemplate {α : Type} (inner : Parser α) : Parser (List TemplateChunk × List α) := do
  match (← peek).kind with
  | .template true more chunk =>
      let _ ← advance
      if more then
        let parts ← templateTail inner
        pure (chunk :: parts.map Prod.fst, parts.map Prod.snd)
      else pure ([chunk], [])
  | _ => fail

def template {α : Type} (inner : Parser α) : Parser (List TemplateChunk × List α) := do
  let (chunks, parts) ← anyTemplate inner
  require (chunks.all fun chunk => chunk.cooked.isSome)
  pure (chunks, parts)

/-- The parts of an import type after `import`: its module is a string, its options an object. -/
def importTypeTail (self : Productions) :
    Parser (Ty × Option Expr × List Text × List Ty) := do
  expectWord .kwImport
  expect .parenOpen
  let m ← mark
  let value ← stringLiteral
  let source : Ty := .literal (.string (← since m) value)
  let options ← (do
    if ← eat .comma then
      require (← atPunct .braceOpen)
      pure (some (← within nested (self .primary)))
    else pure none)
  expect .parenClose
  let name ← many do
    if ← eat .dot then pure (some (← anyName).text) else pure none
  let args ← typeArgsOnLine self
  pure (source, options, name, args)

def typeQuery (self : Productions) : Parser Ty := do
  expectWord .kwTypeof
  if ← atWord .kwImport then
    let (source, options, name, args) ← importTypeTail self
    pure (.typeOfImport source options name args)
  else
    let name ← dottedName
    pure (.query name (← typeArgsOnLine self))

def isTypeWord : Keyword → Bool
  | .kwAny | .kwUnknown | .kwString | .kwObject | .kwNumber | .kwBigint | .kwSymbol
  | .kwBoolean | .kwUndefined | .kwNever => true
  | _ => false

def predicateTail (self : Productions) : Parser (Option Ty) := do
  let token ← peek
  if isWord .kwIs token && token.gap != .newline then
    let _ ← advance
    pure (some (← self .type))
  else pure none

def assertsPredicate (self : Productions) : Parser Ty := do
  expectWord .kwAsserts
  let subject ← (do
    if ← eatWord .kwThis then pure ("this" : Text)
    else pure (← bindingName).text)
  let type ← (do if ← eatWord .kwIs then pure (some (← self .type)) else pure none)
  pure (.predicate true subject type)

def literalType : Parser Ty := do
  let m ← mark
  if ← eat .minus then
    let e ← literalKey
    match e with
    | .string _ _ => fail
    | e => pure (.literal (.unary (← since m) .minus e))
  else if ← eatWord .kwTrue then pure (.literal (.bool (← since m) true))
  else if ← eatWord .kwFalse then pure (.literal (.bool (← since m) false))
  else pure (.literal (← literalKey))

def beginsType : List Token → Bool
  | [] => false
  | token :: rest =>
      let next := rest.headD (endToken 0)
      match token.kind with
      | .string _ | .number _ | .bigint _ | .template true _ _ | .name _ => true
      | .punct p =>
          match p with
          | .braceOpen | .bracketOpen | .less | .bar | .amp | .star | .question | .bang
          | .ellipsis => true
          | .minus =>
              match next.kind with
              | .number _ | .bigint _ => true
              | _ => false
          | .parenOpen => isPunct .parenClose next || isPunct .at next || beginsType rest
          | _ => false
      | .keyword k _ =>
          match k with
          | .kwVoid | .kwNull | .kwThis | .kwTypeof | .kwNew | .kwTrue | .kwFalse | .kwFunction
          | .kwImport => true
          | k => !k.isReserved
      | _ => false

/-- Whether a lone question mark is a type, given the token after it. -/
def endsLoneMark (token : Token) : Bool :=
  match token.kind with
  | .punct p =>
      [Punct.comma, .braceClose, .parenClose, .greater, .equal, .bar].contains p
  | _ => false

def plainType (self : Productions) : Parser Ty := do
  let token ← peek
  let next ← peekAhead 1
  match token.kind with
  | .string _ | .number _ | .bigint _ | .punct .minus | .keyword .kwTrue _
  | .keyword .kwFalse _ => literalType
  | .keyword .kwVoid _ =>
      let _ ← advance
      pure (.keyword "void")
  | .keyword .kwNull _ =>
      let _ ← advance
      pure (.keyword "null")
  | .keyword .kwThis _ =>
      let _ ← advance
      match ← predicateTail self with
      | some type => pure (.predicate false "this" (some type))
      | none => pure .thisType
  | .keyword .kwTypeof _ => typeQuery self
  | .keyword .kwImport _ =>
      let (source, options, name, args) ← importTypeTail self
      pure (.importType source options name args)
  | .punct .braceOpen =>
      if ← atMappedType then mappedType self
      else pure (.object (← typeMembers self))
  | .punct .bracketOpen => tupleType self
  | .punct .question =>
      let _ ← advance
      if endsLoneMark next then pure .anything
      else pure (.marked false true (← self .type))
  | .punct .bang =>
      let _ ← advance
      pure (.marked true true (← self .typePrimary))
  | .punct .parenOpen =>
      let _ ← advance
      let inner ← self .type
      expect .parenClose
      pure (.paren inner)
  | .template true _ _ =>
      let (chunks, types) ← template (self .type)
      pure (.template chunks types)
  | .keyword k _ =>
      if isTypeWord k && !isPunct .dot next then
        let _ ← advance
        pure (.keyword k.text)
      else if k == .kwAsserts && (isName next || isWord .kwThis next) && next.gap != .newline then
        assertsPredicate self
      else typeReference self
  | _ => typeReference self

/--
A type with the brackets of arrays and members after it, or with marks.  A question mark in
front of another type belongs to a conditional type or expression.
-/
def suffixedType (self : Productions) : Parser Ty :=
  within (fun c => { c with allowConditional := true }) do
    let first ← plainType self
    iterate (fun type => do
      let token ← peek
      if token.gap == .newline then pure none
      else if isPunct .bracketOpen token then
        let _ ← advance
        if ← eat .bracketClose then pure (some (Ty.array type))
        else
          let key ← self .type
          expect .bracketClose
          pure (some (Ty.indexed type key))
      else if isPunct .bang token then
        let _ ← advance
        pure (some (Ty.marked true false type))
      else if isPunct .question token && !beginsType (← peekAll).tail then
        let _ ← advance
        pure (some (Ty.marked false false type))
      else pure none) first

/-- The bound of an inferred type, unless a conditional type goes on with it. -/
def inferBound (self : Productions) : Parser (Option Ty) := do
  let outer ← context
  if ← atWord .kwExtends then
    let bound ← attempt do
      expectWord .kwExtends
      let type ← within (fun c => { c with allowConditional := false }) (self .type)
      if !outer.allowConditional then pure type
      else if ← atPunct .question then fail
      else pure type
    pure bound
  else pure none

def prefixedType (self : Productions) : Parser Ty := do
  let token ← peek
  let operator (word : Text) : Parser Ty := do
    let _ ← advance
    pure (.operator word (← self .typeOperator))
  match token.kind with
  | .keyword .kwKeyof _ => operator "keyof"
  | .keyword .kwUnique _ => operator "unique"
  | .keyword .kwReadonly _ =>
      let type ← operator "readonly"
      require (match type with
        | .operator _ (.array _) | .operator _ (.tuple _) => true
        | _ => false)
      pure type
  | .keyword .kwInfer _ =>
      let _ ← advance
      let name ← bindingName
      let bound ← inferBound self
      pure (.infer (.param false false false name bound none))
  | _ => suffixedType self

/-- Types joined by an operator, which may also stand in front of the first. -/
def joinedTypes (separator : Punct) (build : List Ty → Ty) (operand : Parser Ty) :
    Parser Ty := do
  let leading ← eat separator
  let first ← operand
  let more ← many do
    if ← eat separator then pure (some (← operand)) else pure none
  if more.isEmpty && !leading then pure first else pure (build (first :: more))

def atFunctionType (self : Productions) : Parser Bool := ahead do
  expect .parenOpen
  let token ← peek
  if isPunct .parenClose token || isPunct .ellipsis token then pure true
  else
    let _ ← modifiers
    let token ← peek
    if isPunct .braceOpen token || isPunct .bracketOpen token then
      let _ ← self .pattern
      pure ()
    else if isName token || isWord .kwThis token then
      let _ ← advance
      pure ()
    else fail
    let token ← peek
    if isPunct .colon token || isPunct .comma token || isPunct .question token
        || isPunct .equal token then
      pure true
    else if isPunct .parenClose token then
      pure (isPunct .arrow (← peekAhead 1))
    else pure false

def functionType (self : Productions) : Parser Func := do
  let m ← mark
  let typeParams ← typeParams self
  let (paramsLoc, params) ← params self .standalone
  expect .arrow
  let returnType ← self .returnType
  pure (.mk (← since m) false false none typeParams paramsLoc params (some returnType) false
    [] [] [] false)

def constructType (self : Productions) (isAbstract : Bool) : Parser Ty := do
  let f ← functionType self
  require (!(f.params.any Binding.isThis))
  pure (.construct isAbstract f)

def type (self : Productions) : Parser Ty := do
  let token ← peek
  let next ← peekAhead 1
  if isPunct .less token then pure (.function (← functionType self))
  else if isPunct .parenOpen token && (← atFunctionType self) then
    pure (.function (← functionType self))
  else if isWord .kwNew token then
    let _ ← advance
    constructType self false
  else if isWord .kwAbstract token && isWord .kwNew next then
    advanceBy 2
    constructType self true
  else
    let first ← joinedTypes .bar .union
      (joinedTypes .amp .intersection (self .typeOperator))
    let outer ← context
    let token ← peek
    if outer.allowConditional && isWord .kwExtends token && token.gap != .newline then
      let _ ← advance
      let bound ← within (fun c => { c with allowConditional := false }) (self .type)
      expect .question
      let yes ← self .type
      expect .colon
      let no ← self .type
      pure (.conditional first bound yes no)
    else pure first

def returnType (self : Productions) : Parser Ty := do
  let token ← peek
  let next ← peekAhead 1
  if isName token && isWord .kwIs next && next.gap != .newline then
    let subject ← bindingName
    pure (.predicate false subject.text (← predicateTail self))
  else self .type

end Parser

end Syntax

end NgFile
