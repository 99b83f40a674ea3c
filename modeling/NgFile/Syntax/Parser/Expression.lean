import NgFile.Syntax.Parser.Class
import NgFile.Syntax.Precedence

/-!
# Expressions

Operands, operators, arrow functions and assignments.  Where a parenthesis may
begin the parameters of an arrow function, the next tokens decide, or a trial
reading up to the arrow.
-/

namespace NgFile

namespace Syntax

inductive Operator
  | binary (op : BinaryOp)
  | assign (op : Option BinaryOp)

def isAdjacent (p : Punct) (token : Token) : Bool :=
  Parser.isPunct p token && token.gap == .nothing

def lessOperator (rest : List Token) : Operator × Nat :=
  match rest with
  | second :: third :: _ =>
      if isAdjacent .less second then
        if isAdjacent .equal third then (.assign (some .shiftLeft), 3)
        else (.binary .shiftLeft, 2)
      else if isAdjacent .equal second then (.binary .lessEqual, 2)
      else (.binary .less, 1)
  | _ => (.binary .less, 1)

def greaterOperator (rest : List Token) : Operator × Nat :=
  match rest with
  | second :: third :: fourth :: _ =>
      if isAdjacent .greater second then
        if isAdjacent .greater third then
          if isAdjacent .equal fourth then (.assign (some .shiftRightZero), 4)
          else (.binary .shiftRightZero, 3)
        else if isAdjacent .equal third then (.assign (some .shiftRight), 3)
        else (.binary .shiftRight, 2)
      else if isAdjacent .equal second then (.binary .greaterEqual, 2)
      else (.binary .greater, 1)
  | second :: _ =>
      if isAdjacent .equal second then (.binary .greaterEqual, 2) else (.binary .greater, 1)
  | [] => (.binary .greater, 1)

def operator? : List Token → Option (Operator × Nat)
  | [] => none
  | token :: rest =>
      match token.kind with
      | .keyword .kwIn _ => some (.binary .inOp, 1)
      | .keyword .kwInstanceof _ => some (.binary .instanceOf, 1)
      | .punct p =>
          match p with
          | .less => some (lessOperator rest)
          | .greater => some (greaterOperator rest)
          | .equalEqual => some (.binary .equal, 1)
          | .bangEqual => some (.binary .notEqual, 1)
          | .equalEqualEqual => some (.binary .identical, 1)
          | .bangEqualEqual => some (.binary .notIdentical, 1)
          | .plus => some (.binary .add, 1)
          | .minus => some (.binary .subtract, 1)
          | .star => some (.binary .multiply, 1)
          | .slash => some (.binary .divide, 1)
          | .percent => some (.binary .remainder, 1)
          | .starStar => some (.binary .power, 1)
          | .amp => some (.binary .bitAnd, 1)
          | .bar => some (.binary .bitOr, 1)
          | .caret => some (.binary .bitXor, 1)
          | .ampAmp => some (.binary .and, 1)
          | .barBar => some (.binary .or, 1)
          | .questionQuestion => some (.binary .coalesce, 1)
          | .equal => some (.assign none, 1)
          | .plusEqual => some (.assign (some .add), 1)
          | .minusEqual => some (.assign (some .subtract), 1)
          | .starEqual => some (.assign (some .multiply), 1)
          | .slashEqual => some (.assign (some .divide), 1)
          | .percentEqual => some (.assign (some .remainder), 1)
          | .starStarEqual => some (.assign (some .power), 1)
          | .ampEqual => some (.assign (some .bitAnd), 1)
          | .barEqual => some (.assign (some .bitOr), 1)
          | .caretEqual => some (.assign (some .bitXor), 1)
          | .ampAmpEqual => some (.assign (some .and), 1)
          | .barBarEqual => some (.assign (some .or), 1)
          | .questionQuestionEqual => some (.assign (some .coalesce), 1)
          | _ => none
      | _ => none

def unaryOp? (token : Token) : Option UnaryOp :=
  match token.kind with
  | .punct .plus => some .plus
  | .punct .minus => some .minus
  | .punct .bang => some .not
  | .punct .tilde => some .complement
  | .keyword .kwTypeof _ => some .typeOf
  | .keyword .kwVoid _ => some .void
  | .keyword .kwDelete _ => some .delete
  | _ => none

def isLiteralStart (token : Token) : Bool :=
  match token.kind with
  | .string _ | .number _ | .bigint _ | .template true _ _ => true
  | _ => false

/-- Whether an expression or an operator in it can begin with a token; `of` ends one. -/
def beginsExpression (token : Token) : Bool :=
  isLiteralStart token || (Parser.isName token && !Parser.isWord .kwOf token) ||
    (unaryOp? token).isSome ||
    match token.kind with
    | .punct p =>
        match p with
        | .parenOpen | .bracketOpen | .braceOpen | .slash | .slashEqual | .plusPlus
        | .minusMinus | .less | .at => true
        | _ => false
    | .keyword k _ =>
        match k with
        | .kwFunction | .kwClass | .kwNew | .kwThis | .kwSuper | .kwNull | .kwTrue | .kwFalse
        | .kwImport | .kwIn | .kwInstanceof => true
        | _ => false
    | .privateName _ => true
    | _ => false

def isBinaryWord (allowIn : Bool) (rest : List Token) : Bool :=
  match operator? rest, rest with
  | some (.binary op, _), _ => op != .inOp || !allowIn
  | _, token :: _ => Parser.isWord .kwAs token || Parser.isWord .kwSatisfies token
  | _, [] => false

/--
Whether the text behind type arguments shows that they are none of two comparisons.  An equals
sign right behind them makes an operator of their end.
-/
def followsTypeArgs (allowIn : Bool) (rest : List Token) : Bool :=
  match rest with
  | [] => true
  | token :: _ =>
      let isOneOf (ps : List Punct) : Bool := ps.any fun p => Parser.isPunct p token
      let joins := token.gap == .nothing &&
        isOneOf [.equal, .equalEqual, .equalEqualEqual, .arrow]
      match token.kind with
      | .punct .parenOpen | .template true _ _ => true
      | _ =>
          !joins && !isOneOf [.less, .greater, .plus, .minus] &&
            (token.gap == .newline || isBinaryWord allowIn rest || !beginsExpression token)

inductive ArrowGuess
  | yes
  | no
  | unsure
  deriving DecidableEq

def guessParams : List Token → ArrowGuess
  | second :: rest =>
      let third := rest.headD (Parser.endToken 0)
      let fourth := rest.tail.headD (Parser.endToken 0)
      let isAny (ps : List Punct) (token : Token) : Bool :=
        ps.any fun p => Parser.isPunct p token
      if Parser.isPunct .parenClose second then
        if Parser.isPunct .colon third then .unsure
        else if isAny [.arrow, .braceOpen] third then .yes
        else .no
      else if isAny [.bracketOpen, .braceOpen] second then .unsure
      else if Parser.isPunct .ellipsis second then .yes
      else if (Parser.modifierWord? second).isSome && Parser.isName third then
        if Parser.isWord .kwAs third then .no else .yes
      else if !Parser.isName second && !Parser.isWord .kwThis second then .no
      else if Parser.isPunct .colon third then .yes
      else if Parser.isPunct .question third then
        if isAny [.colon, .comma, .equal, .parenClose] fourth then .yes else .no
      else if isAny [.comma, .equal, .parenClose] third then .unsure
      else .no
  | [] => .no

def guessArrow : List Token → ArrowGuess
  | first :: rest =>
      let start : List Token → ArrowGuess
        | token :: rest =>
            if Parser.isPunct .parenOpen token then guessParams rest
            else if Parser.isPunct .less token then
              if rest.head?.any fun t => Parser.isName t || Parser.isWord .kwConst t then .unsure
              else .no
            else .no
        | [] => .no
      if Parser.isWord .kwAsync first then
        if rest.head?.any fun t => t.gap == .newline then .no else start rest
      else start (first :: rest)
  | [] => .no

def Expr.asPure : Expr → Expr
  | .call loc callee optional typeArgs args closing _ =>
      .call loc callee optional typeArgs args closing true
  | .construct loc callee typeArgs args closing _ =>
      .construct loc callee typeArgs args closing true
  | .paren loc inner => .paren loc inner.asPure
  | .chain loc inner => .chain loc inner.asPure
  | .binary loc op left right => .binary loc op left.asPure right
  | .conditional loc test yes no => .conditional loc test.asPure yes no
  | e => e

def Expr.asEffectFree : Expr → Expr
  | .function loc f => .function loc f.asEffectFree
  | .arrow loc f concise => .arrow loc f.asEffectFree concise
  | e => e

/-- A chain of links with an optional one as one expression. -/
def Expr.asChain (loc : Loc) : Expr → Expr
  | .instantiation l inner args => .instantiation l (inner.asChain loc) args
  | e =>
      match e with
      | .member _ _ _ _ | .privateMember _ _ _ _ | .index _ _ _ _ | .call _ _ _ _ _ _ _
      | .nonNull _ _ => .chain loc e
      | e => e

namespace Parser

def rescanSlash : Parser Unit := fun context cursor =>
  match cursor.rest with
  | [] => .error ⟨cursor.lastStop⟩
  | token :: _ => .ok ((), { cursor with rest := rescan context.source token })

def noteDefault (m : Mark) : Parser Unit := fun _ cursor =>
  .ok ((), { cursor with defaults := m.start :: cursor.defaults })

def noteSpreadComma (m : Mark) : Parser Unit := fun _ cursor =>
  .ok ((), { cursor with spreadCommas := m.start :: cursor.spreadCommas })

def coverTarget (e : Expr) : Parser Pattern := fun context cursor =>
  match patternOf? cursor.spreadCommas context.limit e with
  | some (p, starts) =>
      .ok (p, { cursor with defaults := cursor.defaults.filter fun n => !starts.contains n })
  | none => .error ⟨e.loc.start⟩

def coverReference (e : Expr) : Parser Expr := fun _ cursor =>
  match e.simpleTarget? with
  | some target => .ok (target, cursor)
  | none => .error ⟨e.loc.start⟩

def regexLiteral : Parser Expr := do
  let m ← mark
  rescanSlash
  match (← peek).kind with
  | .regex pattern flags =>
      let _ ← advance
      pure (.regex (← since m) pattern flags)
  | _ => fail

def endsInSpread (elements : List Expr) : Bool :=
  match elements.getLast? with
  | some (.spread _ _) => true
  | _ => false

def spreadOrAssignment (self : Productions) : Parser Expr := do
  let m ← mark
  if ← eat .ellipsis then
    let e ← nestedAssignment self
    pure (.spread (← since m) e)
  else nestedAssignment self

def arrayLiteral (self : Productions) : Parser Expr := do
  let m ← mark
  expect .bracketOpen
  let (elements, comma) ← commaList .bracketClose do
    if ← atPunct .comma then
      let token ← peek
      pure (.hole ⟨token.start, token.start, []⟩)
    else spreadOrAssignment self
  expect .bracketClose
  if comma && endsInSpread elements then noteSpreadComma m
  pure (.array (← since m) elements)

def objectMethod (self : Productions) (m : Mark) (kind : MethodKind)
    (isAsync isGenerator : Bool) (key : Key) : Parser Property := do
  let f ← functionTail self isAsync isGenerator .standalone none .required
  require (f.fitsAccessor kind)
  pure (.method (← since m) kind key f)

def objectAccessor (self : Productions) (m : Mark) (kind : MethodKind) : Parser Property := do
  let _ ← advance
  let key ← propertyKey self
  objectMethod self m kind false false key

def pairOrShorthand (self : Productions) (m : Mark) (first : Token) (key : Key) :
    Parser Property := do
  if ← eat .colon then
    let value ← nestedAssignment self
    pure (.pair (← since m) key value)
  else
    let c ← context
    match key with
    | .name n =>
        require (isName first && !(isWord .kwAwait first && c.inAwait)
          && !(isWord .kwYield first && c.inYield))
        if ← eat .equal then
          let value ← nestedAssignment self
          noteDefault m
          pure (.shorthand (← since m) n (some value))
        else pure (.shorthand (← since m) n none)
    | _ => fail

def property (self : Productions) : Parser Property := do
  let m ← mark
  if ← eat .ellipsis then
    let e ← nestedAssignment self
    pure (.spread (← since m) e)
  else if ← atAccessor .kwGet then objectAccessor self m .getter
  else if ← atAccessor .kwSet then objectAccessor self m .setter
  else
    let isAsync ← atAsyncMethod
    if isAsync then
      let _ ← advance
    let isGenerator ← eat .star
    let first ← peek
    let key ← propertyKey self
    let token ← peek
    if isAsync || isGenerator || isPunct .parenOpen token || isPunct .less token then
      objectMethod self m .method isAsync isGenerator key
    else pairOrShorthand self m first key

def objectLiteral (self : Productions) : Parser Expr := do
  let m ← mark
  expect .braceOpen
  let (properties, comma) ← within nested (commaList .braceClose (property self))
  expect .braceClose
  match comma, properties.getLast? with
  | true, some (.spread _ _) => noteSpreadComma m
  | _, _ => pure ()
  pure (.object (← since m) properties)

def parenthesized (self : Productions) : Parser Expr := do
  let m ← mark
  expect .parenOpen
  let inner ← nestedExpression self
  expect .parenClose
  pure (.paren (← since m) inner)

def functionName (isAsync isGenerator : Bool) : Parser (Option Name) :=
  within (inFunction isAsync isGenerator) do
    if ← atPunct .parenOpen then pure none
    else if ← atPunct .less then pure none
    else pure (some (← bindingName))

def functionExpression (self : Productions) : Parser Expr := do
  let m ← mark
  let isAsync ← eatWord .kwAsync
  expectWord .kwFunction
  let isGenerator ← eat .star
  let name ← functionName isAsync isGenerator
  let f ← within (fun c => { c with inAmbient := false })
    (functionTail self isAsync isGenerator .standalone name .required)
  pure (.function (← since m) f)

def classExpression (self : Productions) : Parser Expr := do
  let m ← mark
  let decorators ← decorators self
  let c ← within (fun c => { c with inAmbient := false }) (classTail self decorators false false)
  pure (.classExpr (← since m) c)

/-- Arguments in parentheses, and the comments before the closing parenthesis. -/
def arguments (self : Productions) : Parser (List Expr × List Comment) := do
  expect .parenOpen
  let (args, _) ← within nested (commaList .parenClose (spreadOrAssignment self))
  let closing := (← peek).comments
  expect .parenClose
  pure (args, closing)

def importCall (self : Productions) (m : Mark) (phase : ImportPhase) : Parser Expr := do
  expect .parenOpen
  let source ← nestedAssignment self
  let options ← (do
    if ← eat .comma then
      if ← atPunct .parenClose then pure none
      else
        let e ← nestedAssignment self
        let _ ← eat .comma
        pure (some e)
    else pure none)
  let closing := (← peek).comments
  expect .parenClose
  pure (.importCall (← since m) phase source options closing)

def importExpression (self : Productions) : Parser Expr := do
  let m ← mark
  expectWord .kwImport
  if ← eat .dot then
    if ← eatWord .kwMeta then pure (.importMeta (← since m))
    else if ← eatWord .kwSource then importCall self m .source
    else if ← eatWord .kwDefer then importCall self m .deferred
    else fail
  else importCall self m .evaluation

/-- Type arguments after an operand, unless they can be read as comparisons. -/
def typeArgsInExpression (self : Productions) : Parser (Option (List Ty)) := do
  if ← atPunct .less then
    attempt do
      let args ← typeArgs self
      require (followsTypeArgs (← context).allowIn (← peekAll))
      pure args
  else pure none

abbrev Links := Expr × Bool

def memberName (m : Mark) (e : Expr) (optional : Bool) : Parser Expr := do
  match (← peek).kind with
  | .privateName _ =>
      let name ← privateName
      pure (.privateMember (← since m) e optional name)
  | _ =>
      let name ← anyName
      pure (.member (← since m) e optional name)

def memberIndex (self : Productions) (m : Mark) (e : Expr) (optional : Bool) :
    Parser Expr := do
  expect .bracketOpen
  let key ← nestedExpression self
  expect .bracketClose
  pure (.index (← since m) e optional key)

/-- One more link that is no call: a member, a mark, a template or type arguments. -/
def memberLink (self : Productions) (m : Mark) (allowOptional : Bool) (links : Links) :
    Parser (Option Links) := do
  let (e, isChain) := links
  let token ← peek
  let next ← peekAhead 1
  match token.kind with
  | .punct .dot =>
      let _ ← advance
      pure (some (← memberName m e false, isChain))
  | .punct .questionDot =>
      if !allowOptional then pure none
      else if isPunct .bracketOpen next then
        let _ ← advance
        pure (some (← memberIndex self m e true, true))
      else
        match next.kind with
        | .name _ | .keyword _ _ | .privateName _ =>
            let _ ← advance
            pure (some (← memberName m e true, true))
        | _ => pure none
  | .punct .bracketOpen =>
      if (← context).inDecorator then pure none
      else pure (some (← memberIndex self m e false, isChain))
  | .punct .bang =>
      if token.gap == .newline then pure none
      else
        let _ ← advance
        pure (some (.nonNull (← since m) e, isChain))
  | .template true _ _ =>
      require (!isChain)
      let (tag, typeArgs) := match e with
        | .instantiation _ inner args => (inner, args)
        | e => (e, [])
      let (chunks, exprs) ← anyTemplate (nestedExpression self)
      pure (some (.tagged (← since m) tag typeArgs chunks exprs, isChain))
  | .punct .less =>
      match ← typeArgsInExpression self with
      | some args => pure (some (.instantiation (← since m) e args, isChain))
      | none => pure none
  | _ => pure none

/-- A call of an operand, which may have been given type arguments. -/
def callLink (self : Productions) (m : Mark) (e : Expr) (optional : Bool)
    (typeArgs : List Ty) : Parser Expr := do
  let (callee, typeArgs) := match e with
    | .instantiation _ inner args => if optional then (e, typeArgs) else (inner, args)
    | e => (e, typeArgs)
  let (args, closing) ← arguments self
  pure (.call (← since m) callee optional typeArgs args closing false)

def link (self : Productions) (m : Mark) (links : Links) : Parser (Option Links) := do
  match ← memberLink self m true links with
  | some more => pure (some more)
  | none =>
      let (e, isChain) := links
      if ← eat .questionDot then
        let typeArgs ← typeArgsInExpression self
        pure (some (← callLink self m e true (typeArgs.getD []), true))
      else if ← atPunct .parenOpen then
        pure (some (← callLink self m e false [], isChain))
      else pure none

/-- The comments that lead the last token passed, if that is a single character. -/
def lastComments (tokens : List Token) : Parser (List Comment) := fun _ cursor =>
  match tokens.find? fun token => token.stop == cursor.lastStop with
  | some token => .ok (if token.start + 1 == token.stop then token.comments else [], cursor)
  | none => .ok ([], cursor)

def newExpression (self : Productions) : Parser Expr := do
  let m ← mark
  expectWord .kwNew
  if ← eat .dot then
    expectWord .kwTarget
    pure (.newTarget (← since m))
  else
    let inner ← mark
    let tokens ← peekAll
    let first ← self .primary
    let (callee, _) ← iterate (memberLink self inner false) (first, false)
    let (callee, typeArgs) := match callee with
      | .instantiation _ e args => (e, args)
      | e => (e, [])
    match callee with
    | .importCall _ _ _ _ _ => fail
    | _ => pure ()
    let (args, closing) ← (do
      if ← atPunct .parenOpen then arguments self
      else if ← atPunct .questionDot then fail
      else pure ([], ← lastComments tokens))
    pure (.construct (← since m) callee typeArgs args closing false)

def keywordOperand (self : Productions) (k : Keyword) : Parser Expr := do
  let m ← mark
  let next ← peekAhead 1
  match k with
  | .kwThis =>
      let _ ← advance
      pure (.thisExpr (← since m))
  | .kwSuper =>
      let _ ← advance
      require (isPunct .dot next || isPunct .parenOpen next || isPunct .bracketOpen next)
      pure (.superExpr (← since m))
  | .kwNull =>
      let _ ← advance
      pure (.null (← since m))
  | .kwTrue =>
      let _ ← advance
      pure (.bool (← since m) true)
  | .kwFalse =>
      let _ ← advance
      pure (.bool (← since m) false)
  | .kwFunction => functionExpression self
  | .kwClass => classExpression self
  | .kwNew => newExpression self
  | .kwImport => importExpression self
  | _ =>
      if k == .kwAsync && isWord .kwFunction next && next.gap != .newline then
        functionExpression self
      else
        let name ← bindingName
        pure (.ident name.loc name.text)

def primary (self : Productions) : Parser Expr := do
  let m ← mark
  match (← peek).kind with
  | .string _ | .number _ | .bigint _ => literalKey
  | .template true _ _ =>
      let (chunks, exprs) ← template (nestedExpression self)
      pure (.template (← since m) chunks exprs)
  | .punct .slash | .punct .slashEqual => regexLiteral
  | .punct .bracketOpen => arrayLiteral self
  | .punct .braceOpen => objectLiteral self
  | .punct .parenOpen => parenthesized self
  | .punct .at => classExpression self
  | .keyword k _ => keywordOperand self k
  | _ =>
      let name ← bindingName
      pure (.ident name.loc name.text)

def leftHandSide (self : Productions) : Parser Expr := do
  let m ← mark
  let first ← primary self
  let (e, isChain) ← iterate (link self m) (first, false)
  if isChain then pure (e.asChain (← since m)) else pure e

/-- Whether a word that is an operator elsewhere has an operand behind it on its line. -/
def atOperandWord : Parser Bool := do
  let next ← peekAhead 1
  pure ((isAnyWord next || isLiteralStart next) && next.gap != .newline)

def updateExpression (self : Productions) : Parser Expr := do
  let m ← mark
  let token ← peek
  if isPunct .plusPlus token || isPunct .minusMinus token then
    let _ ← advance
    let e ← self .unary
    let target ← coverReference e
    pure (.update (← since m) (isPunct .plusPlus token) true target)
  else
    let e ← leftHandSide self
    let token ← peek
    if (isPunct .plusPlus token || isPunct .minusMinus token) && token.gap != .newline then
      let _ ← advance
      let target ← coverReference e
      pure (.update (← since m) (isPunct .plusPlus token) false target)
    else pure e

def unary (self : Productions) : Parser Expr := do
  let m ← mark
  let token ← peek
  match unaryOp? token with
  | some op =>
      let _ ← advance
      let e ← self .unary
      pure (.unary (← since m) op e)
  | none =>
      if isPunct .less token then
        let _ ← advance
        let type ← self .type
        expect .greater
        let e ← self .unary
        pure (.assertion (← since m) type e)
      else if isWord .kwAwait token then
        if (← context).inAwait then
          let _ ← advance
          let e ← self .unary
          pure (.await (← since m) e)
        else if ← atOperandWord then fail
        else updateExpression self
      else updateExpression self

def isOrAnd : Expr → Bool
  | .binary _ op _ _ => op == .or || op == .and
  | _ => false

/-- Whether an expression has an operator in front of it that a power must not have. -/
def isUnaryOperand : Expr → Bool
  | .unary _ _ _ | .await _ _ => true
  | _ => false

/-- One more operator with its right operand, if it binds more strongly than a level. -/
def binaryStep (self : Productions) (m : Mark) (above : Nat) (left : Expr) :
    Parser (Option Expr) := do
  let tokens ← peekAll
  let token ← peek
  let c ← context
  if (isWord .kwAs token || isWord .kwSatisfies token) && token.gap != .newline then
    if Precedence.comparison.rank ≤ above then pure none
    else
      let _ ← advance
      let type ← self .type
      let loc ← since m
      if isWord .kwAs token then pure (some (.asType loc left type))
      else pure (some (.satisfies loc left type))
  else
    match operator? tokens with
    | some (.binary op, count) =>
        let rank := op.precedence.rank
        if (if op.groupsRight then rank < above else rank ≤ above) then pure none
        else if op == .inOp && !c.allowIn then pure none
        else
          advanceBy count
          let right ← self (.binary rank)
          require (!(op == .coalesce && (isOrAnd left || isOrAnd right)))
          require (!(op == .power && isUnaryOperand left))
          pure (some (.binary (← since m) op left right))
    | _ => pure none

def binary (self : Productions) (above : Nat) : Parser Expr := do
  let m ← mark
  let token ← peek
  let first ← (do
    match token.kind with
    | .privateName _ =>
        require (← context).allowIn
        let name ← privateName
        expectWord .kwIn
        let right ← self (.binary Precedence.comparison.rank)
        pure (.privateIn (← since m) name right)
    | _ =>
        let e ← unary self
        pure (if token.pureMark then e.asPure else e))
  iterate (binaryStep self m above) first

structure ArrowHead where
  mark : Mark
  isAsync : Bool
  typeParams : List Ty
  paramsLoc : Loc
  params : List Binding
  returnType : Option Ty

def arrowHead (self : Productions) : Parser ArrowHead := do
  let m ← mark
  let isAsync ← eatWord .kwAsync
  let (typeParams, (paramsLoc, params), returnType) ←
    within (fun c => { c with inAwait := c.inAwait || isAsync }) do
      let typeParams ← typeParams self
      let params ← params self .standalone
      let returnType ← returnAnnotation self
      pure (typeParams, params, returnType)
  require (!(params.any Binding.isThis))
  require (!(← atNewline))
  expect .arrow
  pure ⟨m, isAsync, typeParams, paramsLoc, params, returnType⟩

/--
An arrow function from after its arrow on.  Whether `in` is an operator in its statements
depends on what is around the function.
-/
def arrowBody (self : Productions) (head : ArrowHead) (returnTypes : Bool) : Parser Expr := do
  let build (directives : List Directive) (statements : List Stmt) (closing : List Comment)
      (concise : Bool) : Parser Expr := do
    let loc ← since head.mark
    pure (.arrow loc
      (.mk loc head.isAsync false none head.typeParams head.paramsLoc head.params head.returnType
        true directives statements closing false) concise)
  if ← atPunct .braceOpen then
    let inBody (c : Context) : Context :=
      { inFunction head.isAsync false c with allowIn := c.allowIn, inAmbient := false }
    let (body, closing) ← within inBody
      (bracedStatements self)
    let (directives, statements) := splitDirectives (← context).source body
    build directives statements closing false
  else
    let e ← within (fun c => { c with inAwait := head.isAsync, inYield := false })
      (self (.assignment returnTypes))
    build [] [.expression e.loc e] [] true

def possibleArrow (self : Productions) (returnTypes : Bool) : Parser (Option Expr) := do
  match guessArrow (← peekAll) with
  | .no => pure none
  | .yes =>
      let head ← arrowHead self
      pure (some (← arrowBody self head true))
  | .unsure =>
      match ← attempt (do
        let head ← arrowHead self
        require (!head.returnType.isSome || returnTypes)
        pure head) with
      | some head => pure (some (← arrowBody self head returnTypes))
      | none =>
          attempt do
            let head ← arrowHead self
            let e ← arrowBody self head returnTypes
            require (← atPunct .colon)
            pure e

def atAsyncArrow : Parser Bool := do
  let next ← peekAhead 1
  let third ← peekAhead 2
  pure ((← atWord .kwAsync) && isName next && next.gap != .newline
    && isPunct .arrow third && third.gap != .newline)

/-- The head of an arrow function with a single bare parameter, from after the parameter on. -/
def bareArrow (self : Productions) (m : Mark) (isAsync : Bool) (name : Name)
    (returnTypes : Bool) : Parser Expr := do
  require (!(← atNewline))
  expect .arrow
  let param : Binding := .mk name.loc [] .none (.name name) false none none
  arrowBody self ⟨m, isAsync, [], name.loc, [param], none⟩ returnTypes

def yieldExpression (self : Productions) : Parser Expr := do
  let m ← mark
  expectWord .kwYield
  let token ← peek
  if token.gap == .newline then pure (.yield (← since m) false none)
  else
    let delegate ← eat .star
    let token ← peek
    let isEnd := match token.kind with
      | .punct p => [Punct.semicolon, .braceClose, .parenClose, .bracketClose, .colon,
          .comma].contains p
      | .keyword .kwIn _ | .stop | .template false _ _ => true
      | _ => false
    if isEnd && !delegate then pure (.yield (← since m) false none)
    else
      let e ← self (.assignment true)
      pure (.yield (← since m) delegate (some e))

def assignmentTail (self : Productions) (m : Mark) (left : Expr) (returnTypes : Bool) :
    Parser Expr := do
  match operator? (← peekAll) with
  | some (.assign op, count) =>
      let target ← (match op with
        | none => coverTarget left
        | some _ => do
            let e ← coverReference left
            pure (Pattern.ofTarget e))
      advanceBy count
      let value ← self (.assignment returnTypes)
      pure (.assign (← since m) op target value)
  | _ =>
      if ← eat .question then
        let yes ← within (fun c => { c with allowIn := true }) (self (.assignment false))
        expect .colon
        let no ← self (.assignment returnTypes)
        pure (.conditional (← since m) left yes no)
      else pure left

def unmarkedAssignment (self : Productions) (returnTypes : Bool) : Parser Expr := do
  let m ← mark
  let token ← peek
  let c ← context
  if isWord .kwYield token && c.inYield then yieldExpression self
  else if isWord .kwYield token && (← atOperandWord) then fail
  else
    match ← possibleArrow self returnTypes with
    | some e => pure e
    | none =>
        if ← atAsyncArrow then
          expectWord .kwAsync
          let name ← within (fun c => { c with inAwait := true }) bindingName
          bareArrow self m true name returnTypes
        else
          let left ← binary self Precedence.comma.rank
          match left, ← atPunct .arrow with
          | .ident loc text, true => bareArrow self m false ⟨loc, text⟩ returnTypes
          | _, _ =>
              assignmentTail self m left returnTypes

/-- An assignment or anything else at its level; a function may be marked as without effects. -/
def assignment (self : Productions) (returnTypes : Bool) : Parser Expr := do
  let token ← peek
  let e ← unmarkedAssignment self returnTypes
  pure (if token.effectFreeMark then e.asEffectFree else e)

def expression (self : Productions) : Parser Expr := do
  let m ← mark
  let first ← self (.assignment true)
  if ← atPunct .comma then
    let more ← many do
      if ← eat .comma then pure (some (← self (.assignment true))) else pure none
    pure (.sequence (← since m) (first :: more))
  else pure first

end Parser

end Syntax

end NgFile
