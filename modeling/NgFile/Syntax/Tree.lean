import NgFile.Syntax.Token

/-!
# Syntax trees

The syntax of a script as a tree.  Every node that has a meaning of its own
carries its place in the text, so that the text of a node is a slice of the
source; parentheses are nodes, too.  A binding and the target of an assignment
are both patterns, and the parts of a class, an object literal and an interface
have a type each.
-/

namespace NgFile

namespace Syntax

/-- Where a node stands, and the comments that lead its first token. -/
structure Loc where
  start : Nat
  stop : Nat
  comments : List Comment

def Loc.text (loc : Loc) (source : Text) : Text :=
  Text.slice source loc.start loc.stop

structure Name where
  loc : Loc
  text : Text

/-- A string at the front of a body that sets a mode, as it is written between its quotes. -/
structure Directive where
  loc : Loc
  raw : Text

inductive UnaryOp
  | plus
  | minus
  | not
  | complement
  | typeOf
  | void
  | delete
  deriving DecidableEq

/-- Operators with two operands; the three last ones evaluate their right operand only if needed. -/
inductive BinaryOp
  | equal
  | notEqual
  | identical
  | notIdentical
  | less
  | lessEqual
  | greater
  | greaterEqual
  | inOp
  | instanceOf
  | shiftLeft
  | shiftRight
  | shiftRightZero
  | add
  | subtract
  | multiply
  | divide
  | remainder
  | power
  | bitOr
  | bitXor
  | bitAnd
  | or
  | and
  | coalesce
  deriving DecidableEq

inductive Accessibility
  | isPublic
  | isProtected
  | isPrivate
  deriving DecidableEq

structure Modifiers where
  isDeclare : Bool
  accessibility : Option Accessibility
  isStatic : Bool
  isAbstract : Bool
  isOverride : Bool
  isReadonly : Bool
  isAccessor : Bool
  deriving DecidableEq

def Modifiers.none : Modifiers :=
  ⟨false, .none, false, false, false, false, false⟩

inductive MethodKind
  | constructor
  | method
  | getter
  | setter
  deriving DecidableEq

inductive VariableKind
  | var
  | let
  | const
  | using
  | awaitUsing
  deriving DecidableEq

def VariableKind.text : VariableKind → Text
  | var => "var"
  | .let => "let"
  | const => "const"
  | .using => "using"
  | awaitUsing => "await using"

/-- A modifier of a mapped type: absent, present, added or taken away. -/
inductive MappedModifier
  | absent
  | present
  | added
  | removed
  deriving DecidableEq

inductive ImportPhase
  | evaluation
  | source
  | deferred
  deriving DecidableEq

inductive ModuleName
  | ident (name : Name)
  | string (loc : Loc) (value : StringValue)

def ModuleName.text : ModuleName → Text
  | .ident name => name.text
  | .string _ value => value.text

/-- One binding in the braces of an import or export: what it is outside, and inside. -/
structure ModuleBinding where
  isType : Bool
  outer : ModuleName
  inner : ModuleName
  /-- Whether both names are written. -/
  hasAlias : Bool

structure ImportAttribute where
  key : ModuleName
  value : StringValue

structure ImportAttributes where
  word : Text
  entries : List ImportAttribute

structure ModuleSource where
  value : StringValue
  attributes : Option ImportAttributes

structure ImportClause where
  default : Option Name
  namespaceName : Option Name
  /-- The bindings in braces, if there are braces. -/
  named : Option (List ModuleBinding)

/-- An import declaration; one without a clause only runs the module. -/
structure ImportDecl where
  isType : Bool
  phase : ImportPhase
  clause : Option ImportClause
  source : ModuleSource

mutual

inductive Expr
  | ident (loc : Loc) (name : Text)
  | thisExpr (loc : Loc)
  | superExpr (loc : Loc)
  | null (loc : Loc)
  | bool (loc : Loc) (value : Bool)
  | number (loc : Loc) (value : Double)
  | bigint (loc : Loc) (raw : Text)
  | string (loc : Loc) (value : StringValue)
  | regex (loc : Loc) (pattern flags : Text)
  | template (loc : Loc) (chunks : List TemplateChunk) (exprs : List Expr)
  | tagged (loc : Loc) (tag : Expr) (typeArgs : List Ty) (chunks : List TemplateChunk)
      (exprs : List Expr)
  | array (loc : Loc) (elements : List Expr)
  /-- An element of an array literal that is left out. -/
  | hole (loc : Loc)
  | spread (loc : Loc) (argument : Expr)
  | object (loc : Loc) (properties : List Property)
  | function (loc : Loc) (function : Func)
  /-- An arrow function; a concise one has a single expression for its body. -/
  | arrow (loc : Loc) (function : Func) (concise : Bool)
  | classExpr (loc : Loc) (classBody : Class)
  | paren (loc : Loc) (inner : Expr)
  | unary (loc : Loc) (op : UnaryOp) (operand : Expr)
  /-- Increment or decrement, by an operator in front of or after the target. -/
  | update (loc : Loc) (increment leading : Bool) (target : Expr)
  | await (loc : Loc) (operand : Expr)
  | yield (loc : Loc) (delegate : Bool) (operand : Option Expr)
  | binary (loc : Loc) (op : BinaryOp) (left right : Expr)
  /-- Whether an object has a private member. -/
  | privateIn (loc : Loc) (name : Name) (right : Expr)
  | assign (loc : Loc) (op : Option BinaryOp) (target : Pattern) (value : Expr)
  | conditional (loc : Loc) (test yes no : Expr)
  | sequence (loc : Loc) (exprs : List Expr)
  | member (loc : Loc) (object : Expr) (optional : Bool) (name : Name)
  | privateMember (loc : Loc) (object : Expr) (optional : Bool) (name : Name)
  | index (loc : Loc) (object : Expr) (optional : Bool) (key : Expr)
  /-- A call; `closing` holds the comments before its closing parenthesis. -/
  | call (loc : Loc) (callee : Expr) (optional : Bool) (typeArgs : List Ty) (args : List Expr)
      (closing : List Comment) (pure : Bool)
  | construct (loc : Loc) (callee : Expr) (typeArgs : List Ty) (args : List Expr)
      (closing : List Comment) (pure : Bool)
  /-- The whole of a chain with an optional link in it. -/
  | chain (loc : Loc) (inner : Expr)
  | importCall (loc : Loc) (phase : ImportPhase) (source : Expr) (options : Option Expr)
      (closing : List Comment)
  | importMeta (loc : Loc)
  | newTarget (loc : Loc)
  | asType (loc : Loc) (operand : Expr) (type : Ty)
  | satisfies (loc : Loc) (operand : Expr) (type : Ty)
  | nonNull (loc : Loc) (operand : Expr)
  | assertion (loc : Loc) (type : Ty) (operand : Expr)
  | instantiation (loc : Loc) (operand : Expr) (typeArgs : List Ty)

inductive Key
  | name (name : Name)
  | privateName (name : Name)
  /-- A string or a number. -/
  | literal (value : Expr)
  | computed (inner : Expr)

/--
A function from its type parameters on.  One without a body is only declared; the comments
before the closing brace of a body are kept apart.  A function without effects is one that a
comment says so of.
-/
inductive Func
  | mk (loc : Loc) (isAsync isGenerator : Bool) (name : Option Name) (typeParams : List Ty)
      (paramsLoc : Loc) (params : List Binding) (returnType : Option Ty) (hasBody : Bool)
      (directives : List Directive) (statements : List Stmt) (closing : List Comment)
      (effectFree : Bool)

inductive Class
  | mk (decorators : List Expr) (isAbstract isDeclare : Bool) (name : Option Name)
      (typeParams : List Ty) (base : Option Expr) (baseTypeArgs : List Ty)
      (implemented : List Ty) (members : List Member)

inductive Property
  | pair (loc : Loc) (key : Key) (value : Expr)
  /-- A name that stands for itself; only the target of an assignment may give it a default. -/
  | shorthand (loc : Loc) (name : Name) (default : Option Expr)
  | method (loc : Loc) (kind : MethodKind) (key : Key) (function : Func)
  | spread (loc : Loc) (argument : Expr)

inductive EnumMember
  | mk (loc : Loc) (key : Key) (value : Option Expr)

inductive Member
  | field (loc : Loc) (decorators : List Expr) (modifiers : Modifiers) (key : Key)
      (optional definite : Bool) (type : Option Ty) (value : Option Expr)
  | method (loc : Loc) (decorators : List Expr) (modifiers : Modifiers) (kind : MethodKind)
      (key : Key) (optional : Bool) (function : Func)
  | staticBlock (loc : Loc) (statements : List Stmt) (closing : List Comment)
  | indexer (loc : Loc) (modifiers : Modifiers) (param : Text) (keyType type : Ty)
  /-- What a call or a construction of the object takes and gives. -/
  | signature (loc : Loc) (construct : Bool) (function : Func)

inductive Pattern
  | name (name : Name)
  /-- An expression that can be assigned to. -/
  | target (target : Expr)
  | object (loc : Loc) (parts : List Pattern)
  /-- A part of an object pattern. -/
  | keyed (loc : Loc) (key : Key) (value : Pattern)
  | shorthand (loc : Loc) (name : Name) (default : Option Expr)
  | array (loc : Loc) (parts : List Pattern)
  | hole (loc : Loc)
  | rest (loc : Loc) (inner : Pattern)
  | withDefault (loc : Loc) (inner : Pattern) (default : Expr)

/--
A variable of a declaration or a parameter of a function.  The mark is the exclamation mark of
a variable that is set elsewhere, or the question mark of an optional parameter.
-/
inductive Binding
  | mk (loc : Loc) (decorators : List Expr) (modifiers : Modifiers) (pattern : Pattern)
      (marked : Bool) (type : Option Ty) (value : Option Expr)

inductive Ty
  | keyword (word : Text)
  | thisType
  | reference (name : List Text) (args : List Ty)
  | query (name : List Text) (args : List Ty)
  | literal (value : Expr)
  | template (chunks : List TemplateChunk) (types : List Ty)
  | array (element : Ty)
  | tuple (elements : List Ty)
  /-- A named element of a tuple. -/
  | named (name : Text) (optional : Bool) (type : Ty)
  | optional (type : Ty)
  /-- A type with a question or exclamation mark in front of it or behind it. -/
  | marked (isBang leading : Bool) (type : Ty)
  /-- A lone question mark. -/
  | anything
  | rest (type : Ty)
  | union (types : List Ty)
  | intersection (types : List Ty)
  | function (function : Func)
  | construct (isAbstract : Bool) (function : Func)
  | conditional (check bound yes no : Ty)
  | infer (param : Ty)
  /-- The declaration of a type parameter. -/
  | param (isConst isIn isOut : Bool) (name : Name) (bound default : Option Ty)
  | paren (inner : Ty)
  | operator (word : Text) (operand : Ty)
  | indexed (object key : Ty)
  | mapped (key : Text) (constraint : Ty) (nameType : Option Ty)
      (readonly optional : MappedModifier) (type : Option Ty)
  | object (members : List Member)
  | predicate (asserts : Bool) (subject : Text) (type : Option Ty)
  | importType (source : Ty) (options : Option Expr) (name : List Text) (args : List Ty)
  | typeOfImport (source : Ty) (options : Option Expr) (name : List Text) (args : List Ty)

inductive Stmt
  | empty (loc : Loc)
  | debugger (loc : Loc)
  | expression (loc : Loc) (expr : Expr)
  | block (loc : Loc) (body : List Stmt) (closing : List Comment)
  | variableDecl (loc : Loc) (kind : VariableKind) (isDeclare : Bool) (declarators : List Binding)
  | ifThen (loc : Loc) (test : Expr) (yes : Stmt) (no : Option Stmt)
  | forLoop (loc : Loc) (start : Option Stmt) (test step : Option Expr) (body : Stmt)
  | forIn (loc : Loc) (left : Stmt) (right : Expr) (body : Stmt)
  | forOf (loc : Loc) (isAwait : Bool) (left : Stmt) (right : Expr) (body : Stmt)
  /-- The target on the left of a loop over an object. -/
  | loopTarget (loc : Loc) (target : Pattern)
  | whileLoop (loc : Loc) (test : Expr) (body : Stmt)
  | doWhile (loc : Loc) (body : Stmt) (test : Expr)
  | switch (loc : Loc) (subject : Expr) (cases : List Stmt)
  /-- A case of a switch; the default case has no test. -/
  | case (loc : Loc) (test : Option Expr) (body : List Stmt)
  /-- A block with a handler, from its keyword on, and a finalizer. -/
  | tryCatch (loc : Loc) (body : Stmt) (handlerLoc : Loc) (param : Option Pattern)
      (paramType : Option Ty) (handler finalizer : Option Stmt)
  | throw (loc : Loc) (argument : Expr)
  | ret (loc : Loc) (argument : Option Expr)
  | breakTo (loc : Loc) (label : Option Name)
  | continueTo (loc : Loc) (label : Option Name)
  | labeled (loc : Loc) (label : Name) (body : Stmt)
  | within (loc : Loc) (object : Expr) (body : Stmt)
  | function (loc : Loc) (isDeclare : Bool) (function : Func)
  | classDecl (loc : Loc) (classBody : Class)
  | importDecl (loc : Loc) (declaration : ImportDecl)
  /-- An import of another module's or namespace's value under a name. -/
  | importEquals (loc : Loc) (isType : Bool) (name : Name) (path : List Text)
      (required : Option StringValue)
  | exportDecl (loc : Loc) (declaration : Stmt)
  | exportNames (loc : Loc) (isType : Bool) (bindings : List ModuleBinding)
      (source : Option ModuleSource)
  | exportAll (loc : Loc) (isType : Bool) (name : Option ModuleName) (source : ModuleSource)
  | exportDefault (loc : Loc) (declaration : Stmt)
  | exportDefaultExpr (loc : Loc) (expr : Expr)
  | exportAssign (loc : Loc) (expr : Expr)
  | exportNamespace (loc : Loc) (name : Name)
  | typeAlias (loc : Loc) (isDeclare : Bool) (name : Name) (typeParams : List Ty)
      (type : Ty)
  | interface (loc : Loc) (isDeclare : Bool) (name : Name) (typeParams : List Ty)
      (bases : List Ty) (members : List Member)
  | enum (loc : Loc) (isDeclare isConst : Bool) (name : Name)
      (members : List EnumMember)
  | namespaceDecl (loc : Loc) (isDeclare : Bool) (keyword : Text) (name : List Text)
      (directives : List Directive) (body : List Stmt)
  /-- A module with a string for its name, or the global scope. -/
  | moduleDecl (loc : Loc) (isDeclare : Bool) (name : Option StringValue) (hasBody : Bool)
      (directives : List Directive) (body : List Stmt)

end

structure Program where
  directives : List Directive
  body : List Stmt
  /-- The comments before the end of the text. -/
  closing : List Comment
  /-- The first line, when it names an interpreter. -/
  hashbang : Option Text
  /-- The length of the text. -/
  length : Nat

def Expr.loc : Expr → Loc
  | ident loc _ | thisExpr loc | superExpr loc | null loc | bool loc _ | number loc _
  | bigint loc _ | string loc _ | regex loc _ _ | template loc _ _ | tagged loc _ _ _ _
  | array loc _ | hole loc | spread loc _ | object loc _ | function loc _ | arrow loc _ _
  | classExpr loc _ | paren loc _ | unary loc _ _ | update loc _ _ _ | await loc _
  | yield loc _ _ | binary loc _ _ _ | privateIn loc _ _ | assign loc _ _ _
  | conditional loc _ _ _ | sequence loc _ | member loc _ _ _ | privateMember loc _ _ _
  | index loc _ _ _ | call loc _ _ _ _ _ _ | construct loc _ _ _ _ _ | chain loc _
  | importCall loc _ _ _ _ | importMeta loc | newTarget loc | asType loc _ _
  | satisfies loc _ _ | nonNull loc _ | assertion loc _ _ | instantiation loc _ _ => loc

/-- Whether an expression is an element that an array literal leaves out. -/
def Expr.isHole : Expr → Bool
  | hole _ => true
  | _ => false

def Expr.withoutParens : Expr → Expr
  | paren _ inner => inner.withoutParens
  | e => e

def Stmt.loc : Stmt → Loc
  | empty loc | debugger loc | expression loc _ | block loc _ _ | variableDecl loc _ _ _
  | ifThen loc _ _ _ | forLoop loc _ _ _ _ | forIn loc _ _ _ | forOf loc _ _ _ _
  | loopTarget loc _ | whileLoop loc _ _ | doWhile loc _ _ | switch loc _ _
  | tryCatch loc _ _ _ _ _ _ | throw loc _ | ret loc _ | breakTo loc _ | continueTo loc _
  | labeled loc _ _ | within loc _ _ | function loc _ _ | classDecl loc _ | importDecl loc _
  | importEquals loc _ _ _ _ | exportDecl loc _ | exportNames loc _ _ _ | exportAll loc _ _ _
  | exportDefault loc _ | exportDefaultExpr loc _ | exportAssign loc _ | exportNamespace loc _
  | typeAlias loc _ _ _ _ | interface loc _ _ _ _ _ | enum loc _ _ _ _
  | namespaceDecl loc _ _ _ _ _ | moduleDecl loc _ _ _ _ _ | case loc _ _ => loc

namespace Func

/-- From the type parameters, or the parameters, to the end of the body. -/
def loc : Func → Loc
  | mk loc _ _ _ _ _ _ _ _ _ _ _ _ => loc

def isAsync : Func → Bool
  | mk _ isAsync _ _ _ _ _ _ _ _ _ _ _ => isAsync

def isGenerator : Func → Bool
  | mk _ _ isGenerator _ _ _ _ _ _ _ _ _ _ => isGenerator

def name : Func → Option Name
  | mk _ _ _ name _ _ _ _ _ _ _ _ _ => name

def typeParams : Func → List Ty
  | mk _ _ _ _ typeParams _ _ _ _ _ _ _ _ => typeParams

def paramsLoc : Func → Loc
  | mk _ _ _ _ _ paramsLoc _ _ _ _ _ _ _ => paramsLoc

def params : Func → List Binding
  | mk _ _ _ _ _ _ params _ _ _ _ _ _ => params

def returnType : Func → Option Ty
  | mk _ _ _ _ _ _ _ returnType _ _ _ _ _ => returnType

def hasBody : Func → Bool
  | mk _ _ _ _ _ _ _ _ hasBody _ _ _ _ => hasBody

def directives : Func → List Directive
  | mk _ _ _ _ _ _ _ _ _ directives _ _ _ => directives

def statements : Func → List Stmt
  | mk _ _ _ _ _ _ _ _ _ _ statements _ _ => statements

def closing : Func → List Comment
  | mk _ _ _ _ _ _ _ _ _ _ _ closing _ => closing

def effectFree : Func → Bool
  | mk _ _ _ _ _ _ _ _ _ _ _ _ effectFree => effectFree

def asEffectFree : Func → Func
  | mk loc isAsync isGenerator name typeParams paramsLoc params returnType hasBody directives
      statements closing _ =>
      mk loc isAsync isGenerator name typeParams paramsLoc params returnType hasBody directives
        statements closing true

end Func

namespace Class

def decorators : Class → List Expr
  | mk decorators _ _ _ _ _ _ _ _ => decorators

def name : Class → Option Name
  | mk _ _ _ name _ _ _ _ _ => name

def members : Class → List Member
  | mk _ _ _ _ _ _ _ _ members => members

end Class

namespace Binding

/-- From the pattern to the end of the value. -/
def loc : Binding → Loc
  | mk loc _ _ _ _ _ _ => loc

def pattern : Binding → Pattern
  | mk _ _ _ pattern _ _ _ => pattern

def value : Binding → Option Expr
  | mk _ _ _ _ _ _ value => value

def isRest : Binding → Bool
  | mk _ _ _ (.rest _ _) _ _ _ => true
  | _ => false

def isThis : Binding → Bool
  | mk _ _ _ (.name n) _ _ _ => n.text == "this".toList
  | _ => false

end Binding

def bigintText (raw : Text) : Text :=
  let digits := raw.filter fun c => c ≠ '_' && c ≠ 'n'
  let value (base : Nat) (t : Text) : Nat :=
    t.foldl (fun n c => base * n + (Text.hexDigit? c).getD 0) 0
  match digits with
  | '0' :: 'x' :: t | '0' :: 'X' :: t => Text.ofNat (value 16 t)
  | '0' :: 'o' :: t | '0' :: 'O' :: t => Text.ofNat (value 8 t)
  | '0' :: 'b' :: t | '0' :: 'B' :: t => Text.ofNat (value 2 t)
  | t => Text.ofNat (value 10 t)

/-- The name that a literal gives to a member when it is used as a key. -/
def Expr.keyText? : Expr → Option Text
  | string _ value => some value.text
  | number _ value => some (Numeral.positional value)
  | bigint _ raw => some (bigintText raw)
  | null _ => some "null"
  | regex _ pattern flags => some ("/" ++ pattern ++ "/" ++ flags)
  | template _ [chunk] [] => chunk.cooked
  | _ => none

/-- The name of a member, when it can be told from the text alone. -/
def Key.static? : Key → Option Text
  | name n => some n.text
  | privateName _ => none
  | literal value => value.keyText?
  | computed inner => inner.keyText?

end Syntax

end NgFile
