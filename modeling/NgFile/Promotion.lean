import NgFile.ScriptItem

/-!
# Promotion

Script items are applied to a target in source order.  A local becomes a protected
property that the constructor assigns, a hook becomes a method as well, metadata is
merged into the decorator, and imports and calls are appended.
-/

namespace NgFile

namespace Metadata

/-- The key that moves to the end when it is written. -/
def selectorKey : Text := "selector"

/-- The key whose value lists names to expose; it is no metadata. -/
def exposesKey : Text := "exposes"

/-- The names in a value such as `[Math, formatDate]`: split at commas, brackets and blanks off. -/
def exposedNames (value : Text) : List Text :=
  ((Text.pieces ',' value).map
    (Text.trimBy fun c => c == '[' || c == ']' || Text.isBlank c)).filter
      fun name => !name.isEmpty

end Metadata

namespace TargetClass

/-- Add a property for each of some names, with the name itself for its value. -/
def expose (c : TargetClass) (names : List Text) : TargetClass :=
  { c with properties := c.properties ++ names.map fun name => .initialized name name }

def mergeEntry (c : TargetClass) (entry : MetadataEntry) : TargetClass :=
  if entry.key = Metadata.selectorKey then
    { c with metadata := (c.metadata.remove entry.key).upsert entry.key entry.value }
  else if entry.key = Metadata.exposesKey then
    c.expose (Metadata.exposedNames entry.value)
  else
    { c with metadata := c.metadata.upsert entry.key entry.value }

def mergeMetadata (c : TargetClass) (entries : List MetadataEntry) : TargetClass :=
  entries.foldl mergeEntry c

/-- The assignment of a local to the property of its name; functions keep their instance. -/
def assignment (name : Text) (bind : Bool) : Text :=
  if bind then "this." ++ name ++ " = " ++ name ++ ".bind(this);"
  else "this." ++ name ++ " = " ++ name ++ ";"

/-- Declare a local again in the constructor, and assign it to a property of its name. -/
def promote (c : TargetClass) (name redeclaration : Text) (bind : Bool) : TargetClass :=
  ((c.addProperty (.declared name)).addStatement redeclaration).addStatement
    (assignment name bind)

end TargetClass

namespace ScriptItem

def hookMethod : ClassMethod :=
  ⟨"ngOnInit", [], ["this." ++ hookFunction ++ "();"]⟩

def hookDeclaration (isAsync : Bool) (statements : List Text) : Text :=
  let modifier : Text := if isAsync then "async " else ""
  let body : Text :=
    if statements.isEmpty then [] else "\n" ++ Text.joinWith "\n" statements ++ "\n"
  modifier ++ "function " ++ hookFunction ++ "() \x7b" ++ body ++ "\x7d"

def apply (t : Target) : ScriptItem → Target
  | importDecl text _ _ => t.addImport (terminated text)
  | variableDecl keyword name declarator isFunction =>
      t.mapEntity fun c => c.promote name (keyword ++ " " ++ declarator ++ ";") isFunction
  | functionDecl name text => t.mapEntity fun c => c.promote name text true
  | defineMetadata entries => t.mapEntity fun c => c.mergeMetadata entries
  | onInit isAsync statements =>
      t.mapEntity fun c =>
        (c.promote hookFunction (hookDeclaration isAsync statements) true).addMethod hookMethod
  | call text => t.mapEntity fun c => c.addStatement (terminated text)
  | other _ => t

/-- The default binding of an import of a component file; empty if it has none. -/
def componentImport? : ScriptItem → Option Text
  | importDecl _ default true => some (default.getD [])
  | _ => none

end ScriptItem

namespace Target

def promote (t : Target) (items : List ScriptItem) : Target :=
  items.foldl ScriptItem.apply t

def componentImports (items : List ScriptItem) : List Text :=
  items.filterMap ScriptItem.componentImport?

end Target

end NgFile
