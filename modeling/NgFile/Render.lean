import NgFile.ScriptItem

/-!
# Plain rendering

A target as text, assembled from the texts in it: imports, the decorator call, and
the class with its properties, its constructor and its methods.  Statement texts
are written as they are.
-/

namespace NgFile

namespace Render

def indent : Text := "  "

/-- Statements, each on its own line at a depth. -/
def lines (depth : Nat) (statements : List Text) : Text :=
  (statements.map fun s => Text.replicated depth indent ++ s ++ "\n").flatten

def importLines (t : Target) : Text :=
  (t.importTexts.map fun text => ScriptItem.terminated text ++ "\n").flatten

def entry (e : MetadataEntry) : Text :=
  indent ++ e.key ++ ": " ++ e.value

def decoratorCall (c : TargetClass) : Text :=
  if c.metadata.isEmpty then c.decorator ++ "(\x7b\x7d)"
  else
    c.decorator ++ "(\x7b\n" ++ Text.joinWith ",\n" (c.metadata.entries.map entry) ++ "\n\x7d)"

def property (p : ClassProperty) : Text :=
  let keyword : Text := match p.scope.keyword? with
    | some word => word ++ " "
    | none => []
  let value : Text := match p.initializer with
    | some text => " = " ++ text
    | none => []
  indent ++ keyword ++ p.name ++ value ++ ";\n"

/-- The properties, with an empty line after them if there are any. -/
def properties (ps : List ClassProperty) : Text :=
  if ps.isEmpty then [] else (ps.map property).flatten ++ "\n"

def constructor (body : List Text) : Text :=
  if body.isEmpty then indent ++ "constructor() \x7b\x7d\n"
  else indent ++ "constructor() \x7b\n" ++ lines 2 body ++ indent ++ "\x7d\n"

def method (m : ClassMethod) : Text :=
  "\n" ++ indent ++ m.name ++ "(" ++ m.params ++ ") \x7b\n" ++ lines 2 m.statements ++
    indent ++ "\x7d\n"

/-- What a line that declares the exported class begins with. -/
def classLead : Text := "export default class "

def entity (c : TargetClass) : Text :=
  classLead ++ c.name ++ " \x7b\n" ++ properties c.properties ++ constructor c.constructorBody ++
    (c.methods.map method).flatten ++ "\x7d\n"

end Render

def Target.render (t : Target) : Text :=
  Render.importLines t ++ "\n@" ++ Render.decoratorCall t.entity ++ "\n" ++ Render.entity t.entity

end NgFile
