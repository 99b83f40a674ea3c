import NgFile.Syntax.Printer.Module

/-!
# Printed statements

Each statement ends its line.  The body of a branch or loop follows its head on the
line; a block opens there, and anything else is printed after a blank.
-/

namespace NgFile

namespace Syntax

namespace Printer

open Writing

def block (self : Printers) (around : Surroundings) (body : List Stmt) : Writing :=
  braced body.isEmpty (statements self around body)

def blockOf (self : Printers) (around : Surroundings) : Stmt → Writing
  | .block _ body _ => block self around body
  | _ => nothing

def body (self : Printers) (around : Surroundings) (s : Stmt) : Writing :=
  match s with
  | .block _ body _ => " " ++ block self around body ++ newline
  | .empty _ => ";" ++ newline
  | s => joinLine ++ self (.stmt s around)

/-- Whether a statement could take an `else` behind it for its own. -/
def takesElse : Stmt → Bool
  | .ifThen _ _ _ no =>
      match no with
      | some s => takesElse s
      | none => true
  | .forLoop _ _ _ _ s | .forIn _ _ _ s | .forOf _ _ _ _ s | .whileLoop _ _ s | .within _ _ s
  | .labeled _ _ s => takesElse s
  | _ => false

def ifBranch (self : Printers) (around : Surroundings) (yes : Stmt) (hasElse : Bool) : Writing :=
  let after : Writing := if hasElse then " " else newline
  match yes with
  | .block _ body _ => " " ++ block self around body ++ after
  | yes =>
      if takesElse yes then " " ++ braced false (self (.stmt yes around)) ++ after
      else body self around yes ++ when hasElse indentation

def ifText (self : Printers) (around : Surroundings) (test : Expr) (yes : Stmt) :
    Option Stmt → Writing
  | none => "if (" ++ expr self test ++ ")" ++ ifBranch self around yes false
  | some no =>
      let other : Writing := match no with
        | .ifThen _ test yes no => " " ++ ifText self around test yes no
        | no => body self around no
      "if (" ++ expr self test ++ ")" ++ ifBranch self around yes true ++ "else" ++ other

def variableDeclaration (self : Printers) (around : Surroundings) (kind : VariableKind)
    (isDeclare : Bool) (bindings : List Binding) : Writing :=
  word isDeclare "declare" ++ kind.text ++ " " ++ listed (bindings.map (declarator self around))

def loopStart (self : Printers) (around : Surroundings) (s : Stmt) : Writing :=
  match s with
  | .variableDecl _ kind isDeclare bindings =>
    variableDeclaration self around kind isDeclare bindings
  | .expression _ e => self (.expr e .lowest around)
  | .loopTarget _ p =>
      let isAsync := match p with
        | .name name => name.text == "async".toList
        | _ => false
      wrapped isAsync (target self around p)
  | _ => nothing

def afterBlank (self : Printers) (e : Option Expr) : Writing :=
  preceded " " (e.map (expr self))

def jump (word : Text) (label : Option Name) : Writing :=
  word ++ preceded " " (label.map fun name => name.text) ++ ";" ++ newline

def caseText (self : Printers) (around : Surroundings) (test : Option Expr)
    (consequent : List Stmt) : Writing :=
  let head : Writing := match test with
    | some e => "case " ++ expr self e ++ ":"
    | none => "default:"
  match consequent with
  | [s] => head ++ body self around s
  | ss => head ++ newline ++ deeper (statements self around ss)

/-- A handler.  The comments in front of its block have a blank behind them. -/
def handlerText (self : Printers) (around : Surroundings) (loc : Loc) (param : Option Pattern)
    (paramType : Option Ty) (handler : Stmt) : Writing :=
  let head : Writing := match param with
    | some p => " (" ++ pattern self p ++ typed self paramType ++ ")"
    | none => nothing
  let gap : Writing := depending fun page =>
    when (page.awaitsComments handler.loc) (lead handler.loc)
  " " ++ comments loc ++ "catch" ++ head ++ " " ++ gap ++ blockOf self around handler

def enumBody (self : Printers) (members : List EnumMember) : Writing :=
  let member : EnumMember → Writing
    | .mk loc k (some value) => lead loc ++ key self k ++ " = " ++ expr self value
    | .mk loc k none => lead loc ++ key self k
  match members with
  | [] => "\x7b\x7d"
  | ms => braced false (joined ("," ++ newline) (ms.map member) ++ newline)

def moduleBody (self : Printers) (around : Surroundings) (directives : List Directive)
    (body : List Stmt) : Writing :=
  braced (directives.isEmpty && body.isEmpty)
    (directivesAndStatements self around directives body)

def moduleHead (name : Option StringValue) : Text :=
  match name with
  | some value => "module " ++ string value
  | none => "global"

def isEffectFree : Stmt → Bool
  | .function _ _ f => f.effectFree
  | _ => false

/--
A declaration from its keywords on, and whether a semicolon ends it.  An enumeration brings an
indentation of its own.
-/
def declarationText (self : Printers) (around : Surroundings) (s : Stmt) :
    Option (Writing × Bool) :=
  match s with
  | .variableDecl _ kind isDeclare bindings =>
      some (variableDeclaration self around kind isDeclare bindings, true)
  | .function _ isDeclare f =>
      some (word isDeclare "declare" ++ functionText self around f, false)
  | .classDecl _ c => some (classText self around c, false)
  | .typeAlias _ isDeclare name params type =>
      some (word isDeclare "declare" ++ "type " ++ name.text ++ typeParams self params ++
        " = " ++ self (.type type), true)
  | .interface _ isDeclare name params bases members =>
      let bases : Writing :=
        when (!bases.isEmpty) (" extends " ++ listed (bases.map fun t => self (.type t)))
      some (word isDeclare "declare" ++ "interface " ++ name.text ++ typeParams self params ++
        bases ++ " " ++ typeMembers self members, false)
  | .enum _ isDeclare isConst name members =>
      some (indentation ++ word isDeclare "declare" ++ word isConst "const" ++ "enum " ++
        name.text ++ " " ++ enumBody self members, false)
  | .namespaceDecl _ isDeclare keyword name directives body =>
      some (word isDeclare "declare" ++ keyword ++ " " ++ Text.joinWith "." name ++ " " ++
        moduleBody self around directives body, false)
  | .moduleDecl _ isDeclare name hasBody directives body =>
      some (word isDeclare "declare" ++ moduleHead name ++
        when hasBody (" " ++ moduleBody self around directives body), false)
  | .importEquals _ _ name path required => some (importEquals name path required, true)
  | _ => none

def declarationLine (self : Printers) (around : Surroundings) (s : Stmt) : Writing :=
  match declarationText self around s with
  | some (w, needsEnd) => w ++ when needsEnd ";" ++ newline
  | none => nothing

/-- Whether the comments of a statement stand behind its indentation. -/
def indentsComments : Stmt → Bool
  | .typeAlias _ _ _ _ _ | .interface _ _ _ _ _ _ | .enum _ _ _ _ _
  | .importEquals _ _ _ _ _ => true
  | _ => false

/-- Whether a statement drops the comments in front of it. -/
def dropsComments : Stmt → Bool
  | .case _ _ _ => true
  | _ => false

def statementText (self : Printers) (around : Surroundings) (s : Stmt) : Writing :=
  match s with
  | .empty _ => ";" ++ newline
  | .debugger _ => "debugger;" ++ newline
  | .expression _ e => markStatement ++ expr self e ++ ";" ++ newline
  | .block _ statements _ => block self around statements ++ newline
  | .ifThen _ test yes no => ifText self around test yes no
  | .forLoop _ start test step s =>
      let start : Writing := match start with
        | some start => loopStart self .loopHead start
        | none => nothing
      "for (" ++ start ++ ";" ++ afterBlank self test ++ ";" ++ afterBlank self step ++ ")" ++
        body self around s
  | .forIn _ left right s =>
      "for (" ++ loopStart self .loopHead left ++ " in " ++ expr self right ++ ")" ++
        body self around s
  | .forOf _ isAwait left right s =>
      "for " ++ word isAwait "await" ++ "(" ++ loopStart self around left ++ " of " ++
        item self right ++ ")" ++ body self around s
  | .loopTarget _ p => pattern self p ++ ";" ++ newline
  | .whileLoop _ test s => "while (" ++ expr self test ++ ")" ++ body self around s
  | .doWhile _ s test =>
      let repeated : Writing := match s with
        | .block _ statements _ => " " ++ block self around statements ++ " "
        | .empty _ => self (.stmt s around)
        | s => newline ++ deeper (self (.stmt s around)) ++ indentation
      "do" ++ repeated ++ "while (" ++ expr self test ++ ");" ++ newline
  | .switch _ subject cases =>
      "switch (" ++ expr self subject ++ ") " ++
        braced cases.isEmpty (statements self around cases) ++ newline
  | .case _ test statements => caseText self around test statements
  | .tryCatch _ s handlerLoc param paramType handler finalizer =>
      let handler : Writing := match handler with
        | some h => handlerText self around handlerLoc param paramType h
        | none => nothing
      "try " ++ blockOf self around s ++ handler ++
        preceded " finally " (finalizer.map (blockOf self around)) ++ newline
  | .throw _ argument => "throw " ++ expr self argument ++ ";" ++ newline
  | .ret _ argument => "return" ++ afterBlank self argument ++ ";" ++ newline
  | .breakTo _ label => jump "break" label
  | .continueTo _ label => jump "continue" label
  | .labeled _ label s => label.text ++ ":" ++ body self around s
  | .within _ object s => "with(" ++ expr self object ++ ")" ++ body self around s
  | .importDecl _ decl => importDecl decl ++ newline
  | .exportDecl _ d => "export " ++ declarationLine self around d
  | .exportNames _ isType bindings source => exportNames isType bindings source ++ newline
  | .exportAll _ isType name source => exportAll isType name source ++ newline
  | .exportDefault _ d => "export default " ++ declarationLine self around d
  | .exportDefaultExpr _ e =>
      "export default " ++ markDefaultExport ++ item self e ++ ";" ++ newline
  | .exportAssign _ e => "export = " ++ expr self e ++ ";" ++ newline
  | .exportNamespace _ name => "export as namespace " ++ name.text ++ ";" ++ newline
  | s => declarationLine self around s

def statementLead (s : Stmt) : Writing :=
  if dropsComments s then indentation
  else if indentsComments s then indentation ++ comments s.loc
  else
    match s with
    | .function _ _ f =>
        comments s.loc ++ when f.effectFree (indentation ++ effectFreeMark ++ newline) ++
          indentation
    | .exportDecl _ d | .exportDefault _ d =>
        comments s.loc ++ when (isEffectFree d) (effectFreeMark ++ newline) ++ indentation
    | s => lead s.loc

def statement (self : Printers) (around : Surroundings) (s : Stmt) : Writing :=
  statementLead s ++ statementText self around s

end Printer

end Syntax

end NgFile
