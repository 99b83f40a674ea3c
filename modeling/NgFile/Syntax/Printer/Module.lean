import NgFile.Syntax.Printer.Expression

/-!
# Printed imports and exports
-/

namespace NgFile

namespace Syntax

namespace Printer

open Writing

/-- A binding in braces; a second name that is spelled like the first is left out. -/
def moduleBinding (b : ModuleBinding) : Writing :=
  word b.isType "type" ++ moduleName b.outer ++
    when (b.outer.text != b.inner.text) (" as " ++ moduleName b.inner)

def moduleBindings (bs : List ModuleBinding) : Writing :=
  if bs.isEmpty then "\x7b\x7d" else "\x7b " ++ listed (bs.map moduleBinding) ++ " \x7d"

def moduleAttributes (attributes : ImportAttributes) : Writing :=
  let entry (a : ImportAttribute) : Writing := moduleName a.key ++ ": " ++ string a.value
  let entries : Writing :=
    match attributes.entries with
    | [] => "\x7b\x7d"
    | entries => "\x7b " ++ listed (entries.map entry) ++ " \x7d"
  attributes.word ++ " " ++ entries

def moduleSource (source : ModuleSource) : Writing :=
  string source.value ++ preceded " " (source.attributes.map moduleAttributes)

def importClause (clause : ImportClause) : Writing :=
  let default : Option Writing := clause.default.map fun name => name.text
  let others : Option Writing :=
    match clause.namespaceName, clause.named with
    | some name, _ => some ("* as " ++ name.text)
    | none, some bindings =>
        if bindings.isEmpty && clause.default.isSome then none else some (moduleBindings bindings)
    | none, none => none
  listed (default.toList ++ others.toList)

def importDecl (decl : ImportDecl) : Writing :=
  let phase : Text := match decl.phase with
    | .evaluation => []
    | .source => "source "
    | .deferred => "defer "
  let clause : Writing := match decl.clause with
    | some clause => importClause clause ++ " from "
    | none => nothing
  "import " ++ word decl.isType "type" ++ phase ++ clause ++ moduleSource decl.source ++ ";"

def importEquals (name : Name) (path : List Text) (required : Option StringValue) : Writing :=
  let value : Text := match required with
    | some module => "require(" ++ string module ++ ")"
    | none => Text.joinWith "." path
  "import " ++ name.text ++ " = " ++ value

/-- An export of names; the attributes of their module are left out. -/
def exportNames (isType : Bool) (bindings : List ModuleBinding) (source : Option ModuleSource) :
    Writing :=
  "export " ++ word isType "type" ++ moduleBindings bindings ++
    preceded " from " (source.map fun s => string s.value) ++ ";"

def exportAll (isType : Bool) (name : Option ModuleName) (source : ModuleSource) : Writing :=
  "export " ++ word isType "type" ++ "*" ++ preceded " as " (name.map fun n => moduleName n) ++
    " from " ++ moduleSource source ++ ";"

end Printer

end Syntax

end NgFile
