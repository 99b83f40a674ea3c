import NgFile.Formatting
import NgFile.Imports
import NgFile.Sections

/-!
# Compiling a component file

The stages of a compilation in order: the identifier from the file name, the
sections of the content, the scaffold, the promotion of the script with its
component imports, and the text of the result.
-/

namespace NgFile

structure CompileOptions where
  /-- Whether the text is assembled without formatting it. -/
  isProd : Bool
  deriving DecidableEq

def Target.serialize (t : Target) (isProd : Bool) : Except CompileError Text :=
  if isProd then .ok t.render else t.format

def scaffoldTarget (file identifier : Text) (sections : Sections) : Except CompileError Target :=
  let kind := EntityKind.ofTemplate sections.template
  Target.ofScaffold file
    (Scaffold.synthesize (Names.ofIdentifier identifier) sections.template sections.style kind)
    kind

/-- The items of a script; an empty script has none. -/
def scriptItems? (file script : Text) : Except CompileError (Option (List ScriptItem)) :=
  if script.isEmpty then .ok none else (ScriptItem.classify file script).map some

def Target.withScript (t : Target) (items : Option (List ScriptItem)) : Target :=
  match items with
  | none => t
  | some items => (t.promote items).aggregateImports (Target.componentImports items)

/-- The target that a file compiles to, before it is written out. -/
def targetOf (source : SourceFile) : Except CompileError Target :=
  match Names.componentIdentifier? source.fileName with
  | none => .error (.missingComponentName source.fileName)
  | some identifier => do
      let sections ← Sections.extract source
      let target ← scaffoldTarget source.fileName identifier sections
      let items ← scriptItems? source.fileName sections.script
      return target.withScript items

def compile (source : SourceFile) (options : CompileOptions) : Except CompileError Text := do
  let target ← targetOf source
  target.serialize options.isProd

/-- Compile files; each result stands at the place of its file. -/
def compileAll (sources : List SourceFile) (options : CompileOptions) :
    List (Except CompileError Text) :=
  sources.map fun source => compile source options

end NgFile
