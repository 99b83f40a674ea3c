import NgFile.Syntax.Printer.Type

/-!
# Printed expressions

An expression is printed at a level: it gets parentheses when it binds less
strongly than its place asks for.  Parentheses of the source are dropped otherwise,
except around a function that is called or handed on at once and in front of an
exclamation mark.
-/

namespace NgFile

namespace Syntax

namespace Printer

open Writing

def pureMark : Text := "/* @__PURE__ */ "

/-- Whether the value of a property is the variable of its key. -/
def isShorthand (k : Key) (value : Expr) : Bool :=
  match k, value.withoutParens with
  | .name name, .ident _ text => name.text == text && text != "__proto__".toList
  | _, _ => false

/-- Whether a key is a number whose text is no numeral. -/
def isUnbounded : Key → Bool
  | .literal (.number _ .infinite) => true
  | _ => false

def property (self : Printers) (around : Surroundings) : Property → Writing
  | .pair _ k value =>
      if isShorthand k value then item self value
      else if isUnbounded k then "[" ++ key self k ++ "]: " ++ item self value
      else key self k ++ ": " ++ item self value
  | .shorthand _ name value => name.text ++ valued self .plain value
  | .method _ kind k f => objectMethod self around kind k f
  | .spread _ argument => "..." ++ item self argument

/--
An object literal; several properties stand on lines of their own.  With comments in front of
it, or where its brace would begin something else, it gets parentheses.
-/
def objectText (self : Printers) (around : Surroundings) (loc : Loc) (ps : List Property) :
    Writing :=
  let body : Writing :=
    match ps.map (property self around) with
    | [] => "\x7b\x7d"
    | [p] => "\x7b " ++ p ++ " \x7d"
    | ps => "\x7b" ++ stacked ps ++ "\x7d"
  depending fun page =>
    let hasComments := page.awaitsComments loc
    wrapped (hasComments || page.atStatement || page.atArrowBody)
      (when hasComments (lead loc) ++ body)

/-- An array literal; more than two elements stand on lines of their own. -/
def arrayText (self : Printers) (elements : List Expr) : Writing :=
  let trail : Writing := when (elements.getLast?.any Expr.isHole) ","
  let last (w : Writing) : List Writing → List Writing
    | [] => []
    | ws => ws.dropLast ++ (ws.getLast?.map fun e => e ++ w).toList
  let items := last trail (elements.map (item self))
  if 2 < elements.length then "[" ++ stacked items ++ "]" else "[" ++ listed items ++ "]"

/-- Arguments that have comments among them, each on a line of its own. -/
def argumentLines (self : Printers) : List Expr → Writing
  | [] => nothing
  | [e] => commentLinesAt e.loc ++ item self e
  | e :: more => commentLinesAt e.loc ++ item self e ++ "," ++ argumentLines self more

def arguments (self : Printers) (args : List Expr) (closing : List Comment) : Writing :=
  let isClosed := closing.any fun c => !c.isMark
  depending fun page =>
    if isClosed || args.any fun e => page.awaitsComments e.loc then
      "(" ++ deeper (argumentLines self args ++
        if isClosed then commentLines closing else newline) ++ indentation ++ ")"
    else "(" ++ listed (args.map (item self)) ++ ")"

def number? : Expr → Option Double
  | .paren _ inner => number? inner
  | .number _ value => some value
  | _ => none

/-- Whether a dot behind an expression would be taken for a decimal point. -/
def needsBlankBeforeDot (e : Expr) : Bool :=
  match number? e with
  | some value => (Numeral.shortest value).all Char.isDigit
  | none => false

def operandLevels (op : BinaryOp) (left right : Expr) : Precedence × Precedence :=
  let p := op.precedence
  let isOrAnd (e : Expr) : Bool := match e.withoutParens with
    | .binary _ op _ _ => op == .or || op == .and
    | _ => false
  let isUnary (e : Expr) : Bool := match e.withoutParens with
    | .unary _ _ _ => true
    | _ => false
  match op with
  | .power => (if isUnary left then .call else p, p.weaker)
  | .coalesce =>
      (if isOrAnd left then .leading else p.weaker, if isOrAnd right then .leading else p.weaker)
  | .or | .and => (p.weaker, p.weaker)
  | _ => (p.weaker, p)

def assignText (op : Option BinaryOp) : Text :=
  match op with
  | some op => op.text ++ "="
  | none => "="

def isObjectPattern : Pattern → Bool
  | .object _ _ => true
  | _ => false

def isVariable (text : Text) (e : Expr) : Bool :=
  match e.withoutParens with
  | .ident _ name => name == text
  | _ => false

def phaseWord : ImportPhase → Text
  | .evaluation => []
  | .source => ".source"
  | .deferred => ".defer"

/-- The arguments of an import call; among comments each stands on a line of its own. -/
def importArguments (self : Printers) (source : Expr) (options : Option Expr)
    (closing : List Comment) : Writing :=
  let isClosed := closing.any fun c => !c.isMark
  depending fun page =>
    if isClosed || page.awaitsComments source.loc ||
        options.any fun e => page.awaitsComments e.loc then
      "(" ++ deeper (commentLinesAt source.loc ++ item self source ++
        (match options with
          | some e => "," ++ newline ++ indentation ++ item self e
          | none => nothing) ++
        if isClosed then commentLines closing else newline) ++ indentation ++ ")"
    else "(" ++ listed ((source :: options.toList).map (item self)) ++ ")"

/-- A call.  Its callee begins what the call begins. -/
def callText (self : Printers) (callee : Expr) (optional : Bool) (args : List Ty)
    (values : List Expr) (closing : List Comment) (pure : Bool) (needed : Bool) : Writing :=
  depending fun page =>
    let marks : Writing :=
      if page.atDefaultExport then markDefaultExport
      else when page.atStatement markStatement
    wrapped needed
      (when pure pureMark ++ marks ++ exprAt self .trailing callee ++ when optional "?." ++
        typeArgs self args ++ arguments self values closing)

/-- A unary operator in front of its operand; two equal signs are kept apart. -/
def unaryText (self : Printers) (around : Surroundings) (op : UnaryOp) (operand : Expr) :
    Writing :=
  let gap : Writing := match op, operand.withoutParens with
    | .plus, .unary _ .plus _ | .minus, .unary _ .minus _ => " "
    | .plus, .update _ true true _ | .minus, .update _ false true _ => " "
    | _, _ => when op.isWord " "
  let argument : Writing := match op, operand with
    | .delete, .number _ .infinite => "(0, Infinity)"
    | _, _ => self (.expr operand .exponent around)
  op.text ++ gap ++ argument

def binaryText (self : Printers) (level : Precedence) (around : Surroundings) (op : BinaryOp)
    (left right : Expr) : Writing :=
  let needed := level.atLeast op.precedence || (op == .inOp && around.forbidIn)
  let around := if needed then around.allowingIn else around
  let (l, r) := operandLevels op left right
  wrapped needed
    (self (.expr left l around) ++ " " ++ op.text ++ " " ++ self (.expr right r around))

def conditionalText (self : Printers) (level : Precedence) (around : Surroundings)
    (test yes no : Expr) : Writing :=
  let needed := level.atLeast .conditional
  let around := (if needed then around.allowingIn else around).allowingCall
  wrapped needed
    (self (.expr test .conditional around) ++ " ? " ++ exprAt self .yielded yes ++ " : " ++
      self (.expr no .yielded around))

def functionExpression (self : Printers) (around : Surroundings) (isHandedOn : Bool) (f : Func) :
    Writing :=
  when f.effectFree (effectFreeMark ++ " ") ++
    depending fun page =>
      wrapped (isHandedOn || page.atStatement || page.atDefaultExport) (functionText self around f)

def arrowExpression (self : Printers) (around : Surroundings) (needed : Bool) (f : Func)
    (concise : Bool) : Writing :=
  when f.effectFree (effectFreeMark ++ " ") ++ wrapped needed (arrowText self around f concise)

def expression (self : Printers) (e : Expr) (level : Precedence) (around : Surroundings) :
    Writing :=
  let calls : Surroundings := ⟨false, around.forbidCall⟩
  match e with
  | .ident _ name => name
  | .thisExpr _ => "this"
  | .superExpr _ => "super"
  | .null _ => "null"
  | .bool _ value => if value then "true" else "false"
  | .number _ value => Numeral.shortest value
  | .bigint _ raw => bigint raw
  | .string _ value => string value
  | .regex _ pattern flags => "/" ++ pattern ++ "/" ++ flags
  | .template _ chunks exprs => template chunks (exprs.map (expr self))
  | .tagged _ tag args chunks exprs =>
      exprAt self .trailing tag ++ typeArgs self args ++ template chunks (exprs.map (expr self))
  | .array _ elements => arrayText self elements
  | .hole _ => nothing
  | .spread _ argument => "..." ++ item self argument
  | .object loc properties => objectText self around loc properties
  | .function _ f => functionExpression self around false f
  | .arrow _ f concise => arrowExpression self around (level.atLeast .assign) f concise
  | .classExpr _ c =>
      depending fun page =>
        wrapped (page.atStatement || page.atDefaultExport) (classText self around c)
  | .paren _ inner =>
      match inner with
      | .function _ f => functionExpression self around true f
      | .arrow _ f concise => arrowExpression self around true f concise
      | inner => self (.expr inner level around)
  | .unary _ op operand =>
      wrapped (level.atLeast .leading) (unaryText self around op operand)
  | .update _ increment leading operand =>
      let mark : Writing := if increment then "++" else "--"
      if leading then
        wrapped (level.atLeast .leading) (mark ++ self (.expr operand .leading around))
      else wrapped (level.atLeast .trailing) (self (.expr operand .trailing around) ++ mark)
  | .await _ operand =>
      wrapped (level.atLeast .leading) ("await " ++ self (.expr operand .exponent around))
  | .yield _ delegate operand =>
      wrapped (level.atLeast .assign)
        ("yield" ++ when delegate "*" ++ preceded " " (operand.map (exprAt self .yielded)))
  | .binary _ op left right => binaryText self level around op left right
  | .privateIn _ name right =>
      wrapped (level.atLeast .comparison)
        ("#" ++ name.text ++ " in " ++ self (.expr right .equality .loopHead))
  | .assign _ op left value =>
      depending fun page =>
        let isPattern := isObjectPattern left && (page.atStatement || page.atArrowBody)
        wrapped (level.atLeast .assign || isPattern)
          (target self around left ++ " " ++ assignText op ++ " " ++
            self (.expr value .comma around))
  | .conditional _ test yes no => conditionalText self level around test yes no
  | .sequence _ exprs =>
      wrapped (level.atLeast .comma)
        (listed (exprs.map fun e => self (.expr e .lowest around.allowingCall)))
  | .member _ object optional name =>
      let dot : Text :=
        if optional then "?." else if needsBlankBeforeDot object then " ." else "."
      self (.expr object .trailing calls) ++ dot ++ name.text
  | .privateMember _ object optional name =>
      self (.expr object .trailing calls) ++ (if optional then "?.#" else ".#") ++ name.text
  | .index _ object optional k =>
      wrapped (isVariable "let" object) (self (.expr object .trailing calls)) ++
        when optional "?." ++ "[" ++ expr self k ++ "]"
  | .call _ callee optional args values closing pure =>
      callText self callee optional args values closing pure
        (level.atLeast .construct || around.forbidCall || (pure && level.atLeast .trailing))
  | .construct _ callee args values closing pure =>
      wrapped (level.atLeast .construct || (pure && level.atLeast .trailing))
        (when pure pureMark ++ "new " ++ self (.expr callee .construct ⟨false, true⟩) ++
          typeArgs self args ++ arguments self values closing)
  | .chain _ inner => wrapped (level.atLeast .trailing) (self (.expr inner level around))
  | .importCall _ phase source options closing =>
      wrapped (level.atLeast .construct || around.forbidCall)
        ("import" ++ phaseWord phase ++ importArguments self source options closing)
  | .importMeta _ => "import.meta"
  | .newTarget _ => "new.target"
  | .asType _ operand type =>
      wrapped (level.atLeast .comparison)
        (self (.expr operand .exponent around) ++ " as " ++ self (.type type))
  | .satisfies _ operand type =>
      wrapped (level.atLeast .comparison)
        (self (.expr operand .exponent around) ++ " satisfies " ++ self (.type type))
  | .nonNull _ operand =>
      let isParen := match operand with
        | .paren _ _ => true
        | _ => false
      wrapped isParen (self (.expr operand .trailing around)) ++ "!"
  | .assertion _ type operand =>
      let gap : Writing := match type with
        | .function _ => " "
        | _ => nothing
      "(<" ++ gap ++ self (.type type) ++ ">" ++ self (.expr operand .member around) ++ ")"
  | .instantiation _ operand args => self (.expr operand level around) ++ typeArgs self args

end Printer

end Syntax

end NgFile
