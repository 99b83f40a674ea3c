import NgFile.Syntax.Printer.Literal

/-!
# Printed patterns and functions

Patterns, parameters, and functions from their type parameters on.
-/

namespace NgFile

namespace Syntax

namespace Printer

open Writing

/-- Whether a pattern is a name, perhaps with a default, that is the text. -/
def isNamed (text : Text) : Pattern → Bool
  | .name name => name.text == text
  | .withDefault _ (.name name) _ => name.text == text
  | _ => false

/-- Whether a part of an object pattern may leave out its key. -/
def omitsKey (k : Key) (value : Pattern) : Bool :=
  match k with
  | .name name => name.text != "__proto__".toList && isNamed name.text value
  | _ => false

def isRestPart : Pattern → Bool
  | .rest _ _ => true
  | _ => false

mutual

def pattern (self : Printers) : Pattern → Writing
  | .name name => name.text
  | .target e => item self e
  | .object _ parts =>
      if parts.isEmpty then "\x7b\x7d" else "\x7b " ++ listed (patterns self parts) ++ " \x7d"
  | .keyed _ k value =>
      if omitsKey k value then pattern self value else key self k ++ ": " ++ pattern self value
  | .shorthand _ name value => name.text ++ valued self .plain value
  | .array _ parts =>
      let gap : Writing := when (parts.length == 1 && parts.all isRestPart) " "
      let trail : Writing := match parts.getLast? with
        | some (.hole _) => ","
        | _ => nothing
      "[" ++ gap ++ listed (patterns self parts) ++ trail ++ "]"
  | .hole _ => nothing
  | .rest _ inner => "..." ++ pattern self inner
  | .withDefault _ inner value => pattern self inner ++ valued self .plain (some value)

def patterns (self : Printers) : List Pattern → List Writing
  | [] => []
  | p :: more => pattern self p :: patterns self more

end

mutual

/-- The target of an assignment; in an object pattern no key is left out. -/
def target (self : Printers) (around : Surroundings) : Pattern → Writing
  | .name name => name.text
  | .target e => self (.expr e .comma around)
  | .object _ parts => "\x7b" ++ listed (targets self parts) ++ "\x7d"
  | .keyed _ k value => key self k ++ ": " ++ target self .plain value
  | .shorthand _ name value => name.text ++ valued self .plain value
  | .array _ parts =>
      let trail : Writing := match parts.getLast? with
        | some (.hole _) => ","
        | _ => nothing
      "[" ++ listed (targets self parts) ++ trail ++ "]"
  | .hole _ => nothing
  | .rest _ inner => "..." ++ target self .plain inner
  | .withDefault _ inner value => target self .plain inner ++ valued self .plain (some value)

def targets (self : Printers) : List Pattern → List Writing
  | [] => []
  | p :: more => target self .plain p :: targets self more

end

/-- Whether an expression needs no parentheses behind an at sign. -/
def isPlainDecorator : Expr → Bool
  | .ident _ _ | .member _ _ _ _ | .privateMember _ _ _ _ => true
  | .call _ callee _ _ _ _ _ => isPlainDecorator callee
  | _ => false

def decorators (self : Printers) (ds : List Expr) : Writing :=
  concat (ds.map fun d => "@" ++ wrapped (!isPlainDecorator d) (expr self d) ++ " ")

def accessibility : Option Accessibility → Text
  | none => []
  | some .isPublic => "public "
  | some .isProtected => "protected "
  | some .isPrivate => "private "

def param (self : Printers) (around : Surroundings) : Binding → Writing
  | .mk _ ds ms p marked type value =>
      decorators self ds ++ accessibility ms.accessibility ++ word ms.isOverride "override" ++
        word ms.isReadonly "readonly" ++ pattern self p ++ when marked "?" ++ typed self type ++
        valued self around value

def declarator (self : Printers) (around : Surroundings) : Binding → Writing
  | .mk _ _ _ p marked type value =>
      pattern self p ++ when marked "!" ++ typed self type ++ valued self around value

def typeArgs (self : Printers) (ts : List Ty) : Writing :=
  match ts with
  | [] => nothing
  | ts => "<" ++ listed (ts.map fun t => self (.type t)) ++ ">"

def typeParams (self : Printers) (ts : List Ty) : Writing :=
  match ts with
  | [] => nothing
  | [t] => "<" ++ self (.type t) ++ ">"
  | ts => "<" ++ stacked (ts.map fun t => self (.type t)) ++ ">"

/-- Parameters in parentheses, without one for `this`. -/
def ownParams (self : Printers) (around : Surroundings) (ps : List Binding) : Writing :=
  "(" ++ listed ((ps.filter fun p => !p.isThis).map (param self around)) ++ ")"

/-- Parameters in parentheses; the one for `this` has a blank behind it. -/
def params (self : Printers) (around : Surroundings) (ps : List Binding) : Writing :=
  match ps with
  | p :: more =>
      if p.isThis then
        "(" ++ param self around p ++ when (!more.isEmpty) "," ++ " " ++
          listed (more.map (param self around)) ++ ")"
      else "(" ++ listed (ps.map (param self around)) ++ ")"
  | [] => "()"

/-- The quote for a directive: the one that its first bare quote is not. -/
def directiveQuote : Text → Char
  | [] => '\x27'
  | '\\' :: _ :: rest => directiveQuote rest
  | c :: rest =>
      if c == '\x27' then '\x22' else if c == '\x22' then '\x27' else directiveQuote rest

/-- A directive on its line, in quotes and with its escapes as they are. -/
def directive (d : Directive) : Writing :=
  lead d.loc ++ [directiveQuote d.raw] ++ d.raw ++ [directiveQuote d.raw] ++ ";" ++ newline

def loneString? : Stmt → Option StringValue
  | .expression _ e =>
      match e.withoutParens with
      | .string _ value => some value
      | _ => none
  | _ => none

/--
Directives and the statements after them.  A string that comes first without being a directive
gets parentheses, so that it does not become one; it stands at the beginning of its line.
-/
def directivesAndStatements (self : Printers) (around : Surroundings)
    (directives : List Directive) (body : List Stmt) : Writing :=
  match directives, body with
  | [], first :: more =>
      match loneString? first with
      | some value => "(" ++ string value ++ ");" ++ newline ++ statements self around more
      | none => statements self around body
  | _, _ => concat (directives.map directive) ++ statements self around body

def functionBody (self : Printers) (around : Surroundings) (f : Func) : Writing :=
  let onLine := f.directives.isEmpty && f.statements.isEmpty &&
    f.closing.all fun c => c.isMark || !(c.newlineBefore || c.newlineAfter)
  braced onLine
    (directivesAndStatements self around f.directives f.statements ++ commentList f.closing)

def signature (self : Printers) (around : Surroundings) (f : Func) : Writing :=
  typeParams self f.typeParams ++ params self around f.params ++ typed self f.returnType

/-- What follows the signature of a function: its body, or a semicolon. -/
def bodyOrEnd (self : Printers) (around : Surroundings) (f : Func) : Writing :=
  if f.hasBody then " " ++ functionBody self around f else ";"

def functionText (self : Printers) (around : Surroundings) (f : Func) : Writing :=
  let around := around.allowingCall
  let star : Writing := when f.isGenerator "* "
  let name : Writing := match f.name with
    | some name => when (!f.isGenerator) " " ++ name.text
    | none => nothing
  word f.isAsync "async" ++ "function" ++ star ++ name ++ signature self around f ++
    bodyOrEnd self around f

def arrowText (self : Printers) (around : Surroundings) (f : Func) (concise : Bool) : Writing :=
  let around := around.allowingCall
  let body : Writing := match concise, f.statements with
    | true, .expression _ e :: _ => markArrowBody ++ self (.expr e .comma around)
    | _, _ => functionBody self around f
  word f.isAsync "async" ++ signature self around f ++ " => " ++ body

def effectFreeMark : Text := "/* @__NO_SIDE_EFFECTS__ */"

def accessorWord : MethodKind → Text
  | .getter => "get "
  | .setter => "set "
  | _ => []

/-- A method of a class from its key on, with the words in front of it that are its own. -/
def methodText (self : Printers) (around : Surroundings) (kind : MethodKind) (k : Key)
    (optional : Bool) (f : Func) : Writing :=
  accessorWord kind ++ word f.isAsync "async" ++ when f.isGenerator "*" ++ key self k ++
    when optional "?" ++ signature self around f ++ bodyOrEnd self around f

def objectMethod (self : Printers) (around : Surroundings) (kind : MethodKind) (k : Key)
    (f : Func) : Writing :=
  accessorWord kind ++ word f.isAsync "async" ++ when f.isGenerator "*" ++ key self k ++
    typeParams self f.typeParams ++ ownParams self around f.params ++ typed self f.returnType ++
    bodyOrEnd self around f

end Printer

end Syntax

end NgFile
