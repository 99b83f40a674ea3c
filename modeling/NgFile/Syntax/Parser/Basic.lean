import NgFile.Syntax.Tokens
import NgFile.Syntax.Tree

/-!
# Parsers

A parser reads tokens from a cursor and either fails at a position or yields a
value with the cursor after it.  What the surrounding syntax allows is handed
down in a context.  Loops are bounded by the length of the text, so every parser
is a total function.
-/

namespace NgFile

namespace Syntax

structure SyntaxError where
  offset : Nat
  deriving DecidableEq

/-- What is fixed while a text is parsed, and what the surrounding syntax allows. -/
structure Context where
  source : Text
  /-- A bound on the number of rounds of a loop. -/
  limit : Nat
  /-- Whether `in` is an operator here. -/
  allowIn : Bool
  /-- Whether `await` is an operator here. -/
  inAwait : Bool
  /-- Whether `yield` is an operator here. -/
  inYield : Bool
  inFunction : Bool
  inDecorator : Bool
  /-- Whether declarations here have no code. -/
  inAmbient : Bool
  /-- Whether a conditional type may stand here. -/
  allowConditional : Bool

structure Cursor where
  rest : List Token
  /-- Where the last token ended. -/
  lastStop : Nat
  /-- Properties with a default value whose object is no target of an assignment yet. -/
  defaults : List Nat
  /-- Array and object literals that end in a spread and a comma. -/
  spreadCommas : List Nat

def Parser (α : Type) : Type :=
  Context → Cursor → Except SyntaxError (α × Cursor)

namespace Parser

instance : Monad Parser where
  pure a := fun _ cursor => .ok (a, cursor)
  bind p f := fun context cursor =>
    match p context cursor with
    | .ok (a, after) => f a context after
    | .error e => .error e

def endToken (stop : Nat) : Token :=
  ⟨.stop, stop, stop, .nothing, [], false, false, []⟩

def peek : Parser Token := fun _ cursor =>
  match cursor.rest with
  | [] => .ok (endToken cursor.lastStop, cursor)
  | token :: _ => .ok (token, cursor)

def peekAhead (n : Nat) : Parser Token := fun _ cursor =>
  match cursor.rest.drop n with
  | [] => .ok (endToken cursor.lastStop, cursor)
  | token :: _ => .ok (token, cursor)

def peekAll : Parser (List Token) := fun _ cursor =>
  .ok (cursor.rest, cursor)

def fail {α : Type} : Parser α := fun _ cursor =>
  match cursor.rest with
  | [] => .error ⟨cursor.lastStop⟩
  | token :: _ => .error ⟨token.start⟩

/-- Pass the token in front of the cursor, even a keyword that is spelled with escapes. -/
def advanceName : Parser Token := fun _ cursor =>
  match cursor.rest with
  | [] => .error ⟨cursor.lastStop⟩
  | token :: rest => .ok (token, { cursor with rest := rest, lastStop := token.stop })

def isEscapedWord (token : Token) : Bool :=
  match token.kind with
  | .keyword _ escaped => escaped
  | _ => false

/-- Pass the token in front of the cursor; a keyword with a meaning must not have escapes. -/
def advance : Parser Token := do
  let token ← peek
  if isEscapedWord token then fail else advanceName

def advanceBy : Nat → Parser Unit
  | 0 => pure ()
  | n + 1 => do
      let _ ← advance
      advanceBy n

def context : Parser Context := fun context cursor =>
  .ok (context, cursor)

def within {α : Type} (change : Context → Context) (p : Parser α) : Parser α :=
  fun context cursor => p (change context) cursor

/-- Parse if possible; on failure nothing is passed. -/
def attempt {α : Type} (p : Parser α) : Parser (Option α) := fun context cursor =>
  match p context cursor with
  | .ok (a, after) => .ok (some a, after)
  | .error _ => .ok (none, cursor)

/-- Whether a parser succeeds with `true` here; nothing is passed. -/
def ahead (p : Parser Bool) : Parser Bool := fun context cursor =>
  match p context cursor with
  | .ok (b, _) => .ok (b, cursor)
  | .error _ => .ok (false, cursor)

def require (condition : Bool) : Parser Unit :=
  if condition then pure () else fail

/-- Collect values, last one first, as long as there are any. -/
def collect {α : Type} (step : Parser (Option α)) : Nat → List α → Parser (List α)
  | 0, _ => fail
  | limit + 1, acc => do
      match ← step with
      | none => pure acc.reverse
      | some a => collect step limit (a :: acc)

def many {α : Type} (step : Parser (Option α)) : Parser (List α) := do
  collect step (← context).limit []

def refine {α : Type} (step : α → Parser (Option α)) : Nat → α → Parser α
  | 0, _ => fail
  | limit + 1, a => do
      match ← step a with
      | none => pure a
      | some next => refine step limit next

def iterate {α : Type} (step : α → Parser (Option α)) (start : α) : Parser α := do
  refine step (← context).limit start

structure Mark where
  start : Nat
  comments : List Comment

def mark : Parser Mark := do
  let token ← peek
  pure ⟨token.start, token.comments⟩

def since (m : Mark) : Parser Loc := fun _ cursor =>
  .ok (⟨m.start, cursor.lastStop, m.comments⟩, cursor)

def isPunct (p : Punct) (token : Token) : Bool :=
  match token.kind with
  | .punct q => p == q
  | _ => false

def isWord (k : Keyword) (token : Token) : Bool :=
  match token.kind with
  | .keyword w _ => w == k
  | _ => false

def atPunct (p : Punct) : Parser Bool := do
  pure (isPunct p (← peek))

def atWord (k : Keyword) : Parser Bool := do
  pure (isWord k (← peek))

def eat (p : Punct) : Parser Bool := do
  if ← atPunct p then
    let _ ← advance
    pure true
  else pure false

def eatWord (k : Keyword) : Parser Bool := do
  if ← atWord k then
    let _ ← advance
    pure true
  else pure false

def expect (p : Punct) : Parser Unit := do
  if ← eat p then pure () else fail

def expectWord (k : Keyword) : Parser Unit := do
  if ← eatWord k then pure () else fail

def atNewline : Parser Bool := do
  pure ((← peek).gap == .newline)

/-- Whether a statement may end here without a semicolon. -/
def atStatementEnd : Parser Bool := do
  let token ← peek
  pure (isPunct .semicolon token || isPunct .braceClose token || token.kind == .stop
    || token.gap == .newline)

/-- Pass the end of a statement: a semicolon, or a place where it may be left out. -/
def semicolon : Parser Unit := do
  if ← eat .semicolon then pure ()
  else if ← atStatementEnd then pure ()
  else fail

/--
The items of a list up to a closing punctuator, with commas between them, and whether
there is one after the last.
-/
def commaList {α : Type} (close : Punct) (item : Parser α) : Parser (List α × Bool) := do
  let items ← many do
    if ← atPunct close then pure none
    else
      let a ← item
      if ← eat .comma then pure (some (a, true))
      else if ← atPunct close then pure (some (a, false))
      else fail
  pure (items.map Prod.fst, (items.getLast?.map Prod.snd).getD false)

/-- The text of a token that may name a variable or a label. -/
def nameText? (token : Token) : Option Text :=
  match token.kind with
  | .name text => some text
  | .keyword k _ => if k.isReserved then none else some k.text
  | _ => none

/-- The text of a token that may stand after a dot. -/
def wordText? (token : Token) : Option Text :=
  match token.kind with
  | .name text => some text
  | .keyword k _ => some k.text
  | _ => none

def isName (token : Token) : Bool :=
  (nameText? token).isSome

def isAnyWord (token : Token) : Bool :=
  (wordText? token).isSome

def isReservedWord (token : Token) : Bool :=
  isAnyWord token && !isName token

def bindingName : Parser Name := do
  let m ← mark
  let token ← peek
  let context ← context
  if (isWord .kwAwait token && context.inAwait) || (isWord .kwYield token && context.inYield) then
    fail
  else
    match nameText? token with
    | some text =>
        let _ ← advanceName
        pure ⟨← since m, text⟩
    | none => fail

def anyName : Parser Name := do
  let m ← mark
  match wordText? (← peek) with
  | some text =>
      let _ ← advanceName
      pure ⟨← since m, text⟩
  | none => fail

def stringLiteral : Parser StringValue := do
  match (← peek).kind with
  | .string value =>
      let _ ← advance
      pure value
  | _ => fail

def isLiteralKey (token : Token) : Bool :=
  match token.kind with
  | .string _ | .number _ | .bigint _ => true
  | _ => false

def beginsKey (token : Token) : Bool :=
  isAnyWord token || isLiteralKey token || isPunct .bracketOpen token ||
    match token.kind with
    | .privateName _ => true
    | _ => false

end Parser

inductive StatementPlace
  /-- Among the statements of a script or a block. -/
  | listed
  /-- The only statement of a branch or a loop. -/
  | single
  deriving DecidableEq

/-- The parts of the grammar that occur inside themselves. -/
inductive Goal
  /-- An assignment or anything that binds more strongly. -/
  | assignment (returnTypes : Bool)
  /-- Assignments with commas between them. -/
  | expression
  /-- Operands joined by operators that bind more strongly than a level. -/
  | binary (above : Nat)
  | unary
  | leftHandSide
  | primary
  | type
  | typeOperator
  | typePrimary
  | returnType
  | pattern
  | statement (place : StatementPlace)

abbrev Goal.Result : Goal → Type
  | .assignment _ | .expression | .binary _ | .unary | .leftHandSide | .primary => Expr
  | .type | .typeOperator | .typePrimary | .returnType => Ty
  | .pattern => Pattern
  | .statement _ => Stmt

/-- The parsers that a production may refer back to. -/
abbrev Productions : Type :=
  (goal : Goal) → Parser goal.Result

namespace Parser

/-- Allow `in` as an operator, outside of decorators. -/
def nested (context : Context) : Context :=
  { context with allowIn := true, inDecorator := false }

def nestedAssignment (self : Productions) : Parser Expr :=
  within nested (self (.assignment true))

def nestedExpression (self : Productions) : Parser Expr :=
  within nested (self .expression)

end Parser

end Syntax

end NgFile
