import NgFile.Syntax.Parser.Module

/-!
# Statements

Statements and declarations.
-/

namespace NgFile

namespace Syntax

def Stmt.asEffectFree : Stmt → Stmt
  | .function loc isDeclare f => .function loc isDeclare f.asEffectFree
  | .variableDecl loc .const isDeclare (.mk l ds ms p marked type (some value) :: more) =>
      .variableDecl loc .const isDeclare
        (.mk l ds ms p marked type (some value.asEffectFree) :: more)
  | .exportDecl loc d => .exportDecl loc d.asEffectFree
  | .exportDefault loc d => .exportDefault loc d.asEffectFree
  | .exportDefaultExpr loc e => .exportDefaultExpr loc e.asEffectFree
  | s => s

namespace Parser

def branch (self : Productions) : Parser Stmt :=
  self (.statement .single)

def condition (self : Productions) : Parser Expr := do
  expect .parenOpen
  let e ← self .expression
  expect .parenClose
  pure e

def block (self : Productions) : Parser Stmt := do
  let m ← mark
  let (statements, closing) ← bracedStatements self
  pure (.block (← since m) statements closing)

def declarator (self : Productions) : Parser Binding := do
  let m ← mark
  let pattern ← self .pattern
  let token ← peek
  let definite ← (do
    if isPunct .bang token && token.gap != .newline && pattern.isName then eat .bang
    else pure false)
  let type ← typeAnnotation self
  let value ← (do
    if ← eat .equal then pure (some (← self (.assignment true))) else pure none)
  pure (.mk (← since m) [] .none pattern definite type value)

def declarators (self : Productions) : Parser (List Binding) := do
  let first ← declarator self
  let more ← many do
    if ← eat .comma then pure (some (← declarator self)) else pure none
  pure (first :: more)

def hasNeededValue (kind : VariableKind) (isAmbient : Bool) (b : Binding) : Bool :=
  match b.value with
  | some _ => true
  | none =>
      isAmbient || (b.pattern.isName && match kind with
        | .var | .let => true
        | _ => false)

def allowsPattern (kind : VariableKind) (b : Binding) : Bool :=
  b.pattern.isName || match kind with
    | .using | .awaitUsing => false
    | _ => true

def plainKind? (token : Token) : Option VariableKind :=
  if isWord .kwVar token then some .var
  else if isWord .kwConst token then some .const
  else if isWord .kwLet token then some .let
  else none

/--
The keywords of a declaration of disposable variables, if they are in front of the cursor.  In
the head of a loop `of` after `using` must be followed as a variable is.
-/
def usingKind? (inLoop : Bool) : Parser (Option VariableKind) := do
  let token ← peek
  let second ← peekAhead 1
  let third ← peekAhead 2
  let isNameHere (t : Token) : Bool := isName t && t.gap != .newline
  if isWord .kwUsing token && isNameHere second then
    let isVariable := isPunct .equal third || isPunct .semicolon third || isPunct .colon third
    pure (if inLoop && isWord .kwOf second && !isVariable then none else some .using)
  else if isWord .kwAwait token && isWord .kwUsing second && second.gap != .newline
      && isNameHere third then
    pure (some .awaitUsing)
  else pure none

def passKind (kind : VariableKind) : Parser Unit :=
  advanceBy (if kind == .awaitUsing then 2 else 1)

/--
A declaration of variables as a statement.  One that is the only statement of a branch
declares variables of the whole function.
-/
def variableStatement (self : Productions) (m : Mark) (place : StatementPlace)
    (kind : VariableKind) (isDeclare : Bool) : Parser Stmt := do
  passKind kind
  let bindings ← declarators self
  let ambient := isDeclare || (← context).inAmbient
  require (bindings.all fun b => hasNeededValue kind ambient b && allowsPattern kind b)
  require (place == .listed || kind == .var)
  semicolon
  pure (.variableDecl (← since m) kind isDeclare bindings)

def forTail (self : Productions) (m : Mark) (start : Option Stmt) : Parser Stmt := do
  expect .semicolon
  let test ← (do
    if ← atPunct .semicolon then pure none else pure (some (← nestedExpression self)))
  expect .semicolon
  let step ← (do
    if ← atPunct .parenClose then pure none else pure (some (← nestedExpression self)))
  expect .parenClose
  let body ← branch self
  pure (.forLoop (← since m) start test step body)

def forInTail (self : Productions) (m : Mark) (left : Stmt) : Parser Stmt := do
  expectWord .kwIn
  let right ← self .expression
  expect .parenClose
  let body ← branch self
  pure (.forIn (← since m) left right body)

def forOfTail (self : Productions) (m : Mark) (isAwait : Bool) (left : Stmt) :
    Parser Stmt := do
  expectWord .kwOf
  let right ← self (.assignment true)
  expect .parenClose
  let body ← branch self
  pure (.forOf (← since m) isAwait left right body)

/--
A loop whose head begins with a variable declaration.  How many variables there are and whether
they have values is no matter of syntax.
-/
def forVariables (self : Productions) (m : Mark) (isAwait : Bool) (kind : VariableKind) :
    Parser Stmt := do
  let inner ← mark
  passKind kind
  let bindings ← within (fun c => { c with allowIn := false }) (declarators self)
  let left : Stmt := .variableDecl (← since inner) kind false bindings
  let isDisposable := kind == .using || kind == .awaitUsing
  require (bindings.all (allowsPattern kind))
  if ← atWord .kwOf then
    forOfTail self m isAwait left
  else if ← atWord .kwIn then
    require (!isAwait && !isDisposable)
    forInTail self m left
  else
    require (!isAwait && (isDisposable || bindings.all (hasNeededValue kind false)))
    forTail self m (some left)

def forExpression (self : Productions) (m : Mark) (isAwait : Bool) : Parser Stmt := do
  let inner ← mark
  let first ← peek
  let isAsyncOf := isWord .kwAsync first && !isEscapedWord first && isWord .kwOf (← peekAhead 1)
  let isLet ← atWord .kwLet
  let e ← within (fun c => { c with allowIn := false }) (self .expression)
  let loc ← since inner
  if ← atWord .kwOf then
    require (!isLet && (isAwait || !(isAsyncOf && match e with
      | .ident _ _ => true
      | _ => false)))
    let target ← coverTarget e
    forOfTail self m isAwait (.loopTarget loc target)
  else if ← atWord .kwIn then
    require (!isAwait)
    let target ← coverTarget e
    forInTail self m (.loopTarget loc target)
  else
    require (!isAwait)
    forTail self m (some (.expression loc e))

def forStatement (self : Productions) : Parser Stmt := do
  let m ← mark
  expectWord .kwFor
  let isAwait ← eatWord .kwAwait
  require (!isAwait || (← context).inAwait)
  expect .parenOpen
  if ← atPunct .semicolon then
    require (!isAwait)
    forTail self m none
  else
    let second ← peekAhead 1
    let first ← peek
    let isLetName := isWord .kwLet first && !(isPunct .braceOpen second ||
      isPunct .bracketOpen second || (isAnyWord second && !isWord .kwIn second))
    let kind ← (match plainKind? first with
      | some kind => pure (if isLetName then none else some kind)
      | none => usingKind? true)
    match kind with
    | some kind => forVariables self m isAwait kind
    | none => forExpression self m isAwait

def ifStatement (self : Productions) : Parser Stmt := do
  let m ← mark
  expectWord .kwIf
  let test ← condition self
  let yes ← branch self
  let no ← (do if ← eatWord .kwElse then pure (some (← branch self)) else pure none)
  pure (.ifThen (← since m) test yes no)

def whileStatement (self : Productions) : Parser Stmt := do
  let m ← mark
  expectWord .kwWhile
  let test ← condition self
  let body ← branch self
  pure (.whileLoop (← since m) test body)

def doStatement (self : Productions) : Parser Stmt := do
  let m ← mark
  expectWord .kwDo
  let body ← branch self
  expectWord .kwWhile
  let test ← condition self
  let _ ← eat .semicolon
  pure (.doWhile (← since m) body test)

/-- A jump to a label on its line, or to the innermost loop. -/
def jump (k : Keyword) (build : Loc → Option Name → Stmt) : Parser Stmt := do
  let m ← mark
  expectWord k
  let label ← (do
    if ← atStatementEnd then pure none else pure (some (← bindingName)))
  semicolon
  pure (build (← since m) label)

def returnStatement (self : Productions) : Parser Stmt := do
  let m ← mark
  require (← context).inFunction
  expectWord .kwReturn
  let argument ← (do
    if ← atStatementEnd then pure none else pure (some (← nestedExpression self)))
  semicolon
  pure (.ret (← since m) argument)

/-- The raising of an exception, whose value must begin on its line. -/
def throwStatement (self : Productions) : Parser Stmt := do
  let m ← mark
  expectWord .kwThrow
  require (!(← atNewline))
  let argument ← self .expression
  semicolon
  pure (.throw (← since m) argument)

def withStatement (self : Productions) : Parser Stmt := do
  let m ← mark
  expectWord .kwWith
  let object ← condition self
  let body ← branch self
  pure (.within (← since m) object body)

def caseBody (self : Productions) : Parser (List Stmt) :=
  many do
    let token ← peek
    if isWord .kwCase token || isWord .kwDefault token || isPunct .braceClose token then pure none
    else pure (some (← self (.statement .listed)))

def switchCase (self : Productions) : Parser Stmt := do
  let m ← mark
  let test ← (do
    if ← eatWord .kwDefault then pure none
    else
      expectWord .kwCase
      pure (some (← self .expression)))
  expect .colon
  let body ← caseBody self
  pure (.case (← since m) test body)

def switchStatement (self : Productions) : Parser Stmt := do
  let m ← mark
  expectWord .kwSwitch
  let subject ← condition self
  expect .braceOpen
  let cases ← many do
    if ← atPunct .braceClose then pure none else pure (some (← switchCase self))
  expect .braceClose
  pure (.switch (← since m) subject cases)

def catchClause (self : Productions) : Parser (Option Pattern × Option Ty × Option Stmt) := do
  if ← eatWord .kwCatch then
    if ← eat .parenOpen then
      let pattern ← self .pattern
      let type ← typeAnnotation self
      expect .parenClose
      pure (some pattern, type, some (← block self))
    else pure (none, none, some (← block self))
  else pure (none, none, none)

def tryStatement (self : Productions) : Parser Stmt := do
  let m ← mark
  expectWord .kwTry
  let body ← block self
  let inner ← mark
  let (param, paramType, handler) ← catchClause self
  let handlerLoc ← since inner
  let finalizer ← (do if ← eatWord .kwFinally then pure (some (← block self)) else pure none)
  require (handler.isSome || finalizer.isSome)
  pure (.tryCatch (← since m) body handlerLoc param paramType handler finalizer)

/-- A function declaration from its keywords on; only a default export may lack a name. -/
def functionDeclaration (self : Productions) (m : Mark) (place : StatementPlace)
    (isDeclare needsName : Bool) : Parser Stmt := do
  let isAsync ← eatWord .kwAsync
  expectWord .kwFunction
  let isGenerator ← eat .star
  require (place != .single || (!isAsync && !isGenerator))
  let name ← (do
    if !needsName && ((← atPunct .parenOpen) || (← atPunct .less)) then pure none
    else pure (some (← bindingName)))
  let f ← within (fun c => { c with inAmbient := c.inAmbient || isDeclare })
    (functionTail self isAsync isGenerator .standalone name .orEnd)
  pure (.function (← since m) isDeclare f)

def classDeclaration (self : Productions) (m : Mark) (decorators : List Expr)
    (isAbstract isDeclare : Bool) : Parser Stmt := do
  let c ← classTail self decorators isAbstract isDeclare
  pure (.classDecl (← since m) c)

def typeAlias (self : Productions) (m : Mark) (isDeclare : Bool) : Parser Stmt := do
  expectWord .kwType
  let name ← bindingName
  let typeParams ← typeParams self
  expect .equal
  let type ← self .type
  semicolon
  pure (.typeAlias (← since m) isDeclare name typeParams type)

def interfaceDeclaration (self : Productions) (m : Mark) (isDeclare : Bool) : Parser Stmt := do
  expectWord .kwInterface
  let name ← bindingName
  let typeParams ← typeParams self
  let bases ← (do if ← eatWord .kwExtends then baseTypes self else pure [])
  let members ← typeMembers self
  pure (.interface (← since m) isDeclare name typeParams bases members)

def enumMember (self : Productions) : Parser EnumMember := do
  let m ← mark
  let key ← propertyKey self
  require (match key with
    | .name _ | .literal (.string _ _) => true
    | .computed (.string _ _) | .computed (.template _ _ []) => true
    | _ => false)
  let value ← defaultValue self
  pure (.mk (← since m) key value)

def enumDeclaration (self : Productions) (m : Mark) (isDeclare : Bool) : Parser Stmt := do
  let isConst ← eatWord .kwConst
  expectWord .kwEnum
  let name ← bindingName
  expect .braceOpen
  let (members, _) ← commaList .braceClose (enumMember self)
  expect .braceClose
  pure (.enum (← since m) isDeclare isConst name members)

def moduleBlock (self : Productions) : Parser (List Directive × List Stmt) := do
  expect .braceOpen
  let statements ← many do
    if ← atPunct .braceClose then pure none
    else if (← peek).kind == .stop then fail
    else pure (some (← self (.statement .listed)))
  expect .braceClose
  pure (splitDirectives (← context).source statements)

def inModule (isDeclare : Bool) (c : Context) : Context :=
  { c with
    allowIn := true, inYield := false, inFunction := false
    inAmbient := c.inAmbient || isDeclare }

def moduleDeclaration (self : Productions) (m : Mark) (isDeclare : Bool) : Parser Stmt := do
  let body := within (inModule isDeclare) (moduleBlock self)
  if ← eatWord .kwGlobal then
    let (directives, statements) ← body
    pure (.moduleDecl (← since m) isDeclare none true directives statements)
  else
    let isNamespace ← atWord .kwNamespace
    let keyword ← anyName
    match (← peek).kind with
    | .string value =>
        require (!isNamespace)
        let _ ← advance
        if ← atPunct .braceOpen then
          let (directives, statements) ← body
          pure (.moduleDecl (← since m) isDeclare (some value) true directives statements)
        else
          semicolon
          pure (.moduleDecl (← since m) isDeclare (some value) false [] [])
    | _ =>
        let first ← bindingName
        let more ← many do
          if ← eat .dot then pure (some (← anyName).text) else pure none
        let (directives, statements) ← body
        pure (.namespaceDecl (← since m) isDeclare keyword.text (first.text :: more) directives
          statements)

def beginsDeclaration : List Token → Bool
  | [] => false
  | token :: rest =>
      let second := rest.headD (endToken 0)
      let onLine := second.gap != .newline
      match token.kind with
      | .keyword k _ =>
          match k with
          | .kwVar | .kwLet | .kwConst | .kwFunction | .kwClass | .kwEnum => true
          | .kwInterface | .kwType => isName second && onLine
          | .kwModule | .kwNamespace =>
              onLine && (isName second || match second.kind with
                | .string _ => true
                | _ => false)
          | .kwGlobal =>
              isPunct .braceOpen second || isWord .kwExport second || match second.kind with
                | .name _ => true
                | _ => false
          | .kwAbstract | .kwAsync | .kwDeclare | .kwAccessor | .kwPrivate | .kwProtected
          | .kwPublic | .kwReadonly => onLine && beginsDeclaration rest
          | .kwStatic => beginsDeclaration rest
          | _ => false
      | _ => false

/-- The words in front of a declaration: whether it is only declared, and whether it is abstract. -/
def declarationWords : Parser (Bool × Bool) :=
  iterate (fun (words : Bool × Bool) => do
    let (isDeclare, isAbstract) := words
    let next ← peekAhead 1
    if !followsModifier next || next.gap == .newline then pure none
    else if ← eatWord .kwDeclare then
      require (!isDeclare)
      pure (some (true, isAbstract))
    else if ← eatWord .kwAbstract then
      require (!isAbstract)
      pure (some (isDeclare, true))
    else pure none) (false, false)

/-- A declaration with the words in front of it, after its decorators; only a class has any. -/
def declaration (self : Productions) (m : Mark) (decorators : List Expr) : Parser Stmt := do
  let (isDeclare, isAbstract) ← declarationWords
  let token ← peek
  let second ← peekAhead 1
  require ((decorators.isEmpty && !isAbstract) || isWord .kwClass token)
  match token.kind with
  | .keyword k _ =>
      match k with
      | .kwClass => classDeclaration self m decorators isAbstract isDeclare
      | .kwFunction => functionDeclaration self m .listed isDeclare true
      | .kwAsync =>
          require (isWord .kwFunction second && second.gap != .newline)
          functionDeclaration self m .listed isDeclare true
      | .kwInterface => interfaceDeclaration self m isDeclare
      | .kwType => typeAlias self m isDeclare
      | .kwEnum => enumDeclaration self m isDeclare
      | .kwModule | .kwNamespace | .kwGlobal => moduleDeclaration self m isDeclare
      | _ =>
          if isWord .kwConst token && isWord .kwEnum second then enumDeclaration self m isDeclare
          else
            match plainKind? token with
            | some kind => variableStatement self m .listed kind isDeclare
            | none => fail
  | _ => fail

def markedStatement (p : Parser Stmt) : Parser Stmt := do
  let token ← peek
  let s ← p
  pure (if token.effectFreeMark then s.asEffectFree else s)

/--
The default export, from its keyword on.  Decorators stand in front of the export or behind it,
not both.
-/
def exportDefault (self : Productions) (m : Mark) (outer : List Expr) : Parser Stmt := do
  expectWord .kwDefault
  let inner ← mark
  let decorators ← decorators self
  require (outer.isEmpty || decorators.isEmpty)
  let decorators := outer ++ decorators
  let token ← peek
  let second ← peekAhead 1
  let onLine := second.gap != .newline
  let isAbstract := isWord .kwAbstract token && isWord .kwClass second && onLine
  if isWord .kwClass token || isAbstract then
    if isAbstract then
      let _ ← advance
    let c ← classDeclaration self inner decorators isAbstract false
    pure (.exportDefault (← since m) c)
  else
    require decorators.isEmpty
    if isWord .kwFunction token ||
        (isWord .kwAsync token && isWord .kwFunction second && onLine) then
      let f ← markedStatement (functionDeclaration self inner .listed false false)
      pure (.exportDefault (← since m) f)
    else if isWord .kwInterface token && isName second && onLine then
      let i ← interfaceDeclaration self inner false
      pure (.exportDefault (← since m) i)
    else
      let e ← nestedAssignment self
      semicolon
      pure (.exportDefaultExpr (← since m) e)

/-- The export of a declaration, from the declaration on; `await` is an operator in it. -/
def exportedDeclaration (self : Productions) (m : Mark) (outer : List Expr) : Parser Stmt := do
  let inner ← mark
  let decorators ← decorators self
  require (outer.isEmpty || decorators.isEmpty)
  let d ← within (fun c => { c with inAwait := true })
    (markedStatement (declaration self inner (outer ++ decorators)))
  pure (.exportDecl (← since m) d)

def exportDeclaration (self : Productions) (outer : List Expr) : Parser Stmt := do
  let m ← mark
  expectWord .kwExport
  let token ← peek
  let second ← peekAhead 1
  if isWord .kwDefault token then exportDefault self m outer
  else if !outer.isEmpty || isPunct .at token then exportedDeclaration self m outer
  else if isPunct .star token then exportAll m false
  else if isPunct .braceOpen token then exportNames m false
  else if isPunct .equal token then
    let _ ← advance
    let e ← nestedAssignment self
    semicolon
    pure (.exportAssign (← since m) e)
  else if isWord .kwAs token then
    let _ ← advance
    expectWord .kwNamespace
    let name ← bindingName
    semicolon
    pure (.exportNamespace (← since m) name)
  else if isWord .kwType token && isPunct .braceOpen second then
    let _ ← advance
    exportNames m true
  else if isWord .kwType token && isPunct .star second then
    let _ ← advance
    exportAll m true
  else if isWord .kwImport token then
    let inner ← mark
    let _ ← advance
    let isType ← atTypeImport
    if isType then
      let _ ← advance
    let name ← bindingName
    let d ← importEquals inner isType name
    pure (.exportDecl (← since m) d)
  else exportedDeclaration self m []

/-- An expression as a statement, or a statement with a label. -/
def expressionStatement (self : Productions) : Parser Stmt := do
  let m ← mark
  let e ← self .expression
  match e, ← atPunct .colon with
  | .ident loc text, true =>
      let _ ← advance
      let body ← branch self
      pure (.labeled (← since m) ⟨loc, text⟩ body)
  | _, _ =>
      semicolon
      pure (.expression (← since m) e)

/--
A statement that begins with `let`: a declaration, unless an operator or the end of the
statement shows that it is a name.
-/
def letStatement (self : Productions) (place : StatementPlace) : Parser Stmt := do
  let m ← mark
  let next ← peekAhead 1
  let isOperand := match operator? (← peekAll).tail with
    | some (.binary op, _) => !([BinaryOp.or, .and, .coalesce].contains op)
    | some (.assign _, _) => true
    | none => false
  if isOperand then
    let e ← self (.assignment true)
    semicolon
    pure (.expression (← since m) e)
  else if isPunct .dot next || isPunct .parenOpen next then
    let e ← self .expression
    semicolon
    pure (.expression (← since m) e)
  else if (place == .single && !isPunct .bracketOpen next) || isPunct .semicolon next then
    let name ← bindingName
    semicolon
    pure (.expression (← since m) (.ident name.loc name.text))
  else variableStatement self m place .let false

def decoratedStatement (self : Productions) (place : StatementPlace) : Parser Stmt := do
  let m ← mark
  let decorators ← decorators self
  if ← atWord .kwExport then exportDeclaration self decorators
  else
    require (place != .single)
    declaration self m decorators

def keywordStatement (self : Productions) (place : StatementPlace) (k : Keyword) :
    Parser Stmt := do
  let m ← mark
  let next ← peekAhead 1
  match k with
  | .kwIf => ifStatement self
  | .kwDo => doStatement self
  | .kwWhile => whileStatement self
  | .kwFor => forStatement self
  | .kwContinue => jump .kwContinue .continueTo
  | .kwBreak => jump .kwBreak .breakTo
  | .kwWith => withStatement self
  | .kwSwitch => switchStatement self
  | .kwThrow => throwStatement self
  | .kwTry => tryStatement self
  | .kwReturn => returnStatement self
  | .kwDebugger =>
      let _ ← advance
      semicolon
      pure (.debugger (← since m))
  | .kwExport => exportDeclaration self []
  | .kwImport =>
      if isPunct .parenOpen next || isPunct .dot next then expressionStatement self
      else importDeclaration
  | .kwClass =>
      require (place != .single)
      classDeclaration self m [] false false
  | .kwFunction => functionDeclaration self m place false true
  | .kwAsync =>
      if isWord .kwFunction next && next.gap != .newline then
        functionDeclaration self m place false true
      else expressionStatement self
  | .kwVar => variableStatement self m place .var false
  | .kwConst =>
      if isWord .kwEnum next then enumDeclaration self m false
      else variableStatement self m place .const false
  | .kwLet =>
      if isEscapedWord (← peek) then expressionStatement self else letStatement self place
  | .kwUsing | .kwAwait =>
      match ← usingKind? false with
      | some kind => variableStatement self m place kind false
      | none => expressionStatement self
  | _ =>
      if beginsDeclaration (← peekAll) then
        within (fun c => { c with inAwait := false }) (declaration self m [])
      else expressionStatement self

def statement (self : Productions) (place : StatementPlace) : Parser Stmt :=
  markedStatement do
    let m ← mark
    match (← peek).kind with
    | .punct .braceOpen => block self
    | .punct .semicolon =>
        let _ ← advance
        pure (.empty (← since m))
    | .punct .at => decoratedStatement self place
    | .keyword k _ => keywordStatement self place k
    | _ => expressionStatement self

end Parser

end Syntax

end NgFile
