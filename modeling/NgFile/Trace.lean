import NgFile.Compile

/-!
# Traces

What a compilation reports about its progress: the file it works on, the kind of
scaffold, and what is done with each item of the script.  A compilation that fails
has reported what it did before.
-/

namespace NgFile

inductive TraceEvent
  | compiling (file : Text)
  | scaffolding (kind : EntityKind)
  | copyingImport (file text : Text)
  | promotingVariable (file name : Text)
  | promotingFunction (file name : Text)
  | mergingMetadata (file : Text) (entries : Nat)
  | promotingHook (file : Text)
  | ignoring (file statement : Text)
  deriving DecidableEq

namespace TraceEvent

/-- What is reported about an item; a call is kept silently. -/
def ofItem? (file : Text) : ScriptItem → Option TraceEvent
  | .importDecl text _ _ => some (copyingImport file text)
  | .variableDecl _ name _ _ => some (promotingVariable file name)
  | .functionDecl name _ => some (promotingFunction file name)
  | .defineMetadata entries => some (mergingMetadata file entries.length)
  | .onInit _ _ => some (promotingHook file)
  | .call _ => none
  | .other text => some (ignoring file text)

def message? : TraceEvent → Option Text
  | compiling _ => none
  | scaffolding _ => some "synthesizing scaffold"
  | copyingImport _ _ => some "copying import"
  | promotingVariable _ _ => some "promoting variable"
  | promotingFunction _ _ => some "promoting function"
  | mergingMetadata _ _ => some "merging metadata"
  | promotingHook _ => some "promoting onInit hook"
  | ignoring _ _ => some "ignoring statement"

end TraceEvent

/-- What is reported once the scaffold is lifted: one event for each item that has one. -/
def scriptTrace (file identifier : Text) (sections : Sections) : List TraceEvent :=
  match scaffoldTarget file identifier sections, scriptItems? file sections.script with
  | .ok _, .ok (some items) => items.filterMap (TraceEvent.ofItem? file)
  | _, _ => []

def traceOf (source : SourceFile) : List TraceEvent :=
  let file := source.fileName
  .compiling file ::
    match Names.componentIdentifier? file, Sections.extract source with
    | some identifier, .ok sections =>
        .scaffolding (EntityKind.ofTemplate sections.template) ::
          scriptTrace file identifier sections
    | _, _ => []

end NgFile
