import NgFile.Metadata
import NgFile.Names

/-!
# Scaffolds

Every component file starts from a scaffold: the source text of a minimal
decorated class with a default selector and, for a component, an inline
template.  Template and style texts are arbitrary, so they are escaped for the
template literal that holds them.
-/

namespace NgFile

def entityClassName : Text := "AnalogNgEntity"

def coreModule : Text := "@angular/core"

inductive EntityKind
  | component
  | directive
  deriving DecidableEq

namespace EntityKind

/-- A template makes a component; a file without one is a directive. -/
def ofTemplate (template : Text) : EntityKind :=
  if template.isEmpty then .directive else .component

def decoratorName : EntityKind → Text
  | component => "Component"
  | directive => "Directive"

end EntityKind

namespace Scaffold

/--
Escape a text for a template literal: a backslash and a grave accent get a
backslash, and so does a dollar sign before an opening brace.
-/
def escapeTemplate : Text → Text
  | [] => []
  | '$' :: '{' :: rest => '\\' :: '$' :: '{' :: escapeTemplate rest
  | c :: rest =>
      if c = '\\' ∨ c = Text.graveAccent then '\\' :: c :: escapeTemplate rest
      else c :: escapeTemplate rest

/-- The template with the style rules inlined in front of it on a single line. -/
def inlineTemplate (template style : Text) : Text :=
  if style.isEmpty then template
  else "<style>" ++ style.filter (· ≠ '\n') ++ "</style>\n" ++ template

def coreImports (kind : EntityKind) : Text :=
  match kind with
  | .component => kind.decoratorName ++ ", ChangeDetectionStrategy"
  | .directive => kind.decoratorName

def templateLiteral (t : Text) : Text :=
  Text.graveAccent :: (escapeTemplate t ++ [Text.graveAccent])

def entries (names : Names) (template style : Text) (kind : EntityKind) : List MetadataEntry :=
  [⟨"standalone", "true"⟩, ⟨"selector", "'" ++ names.selector ++ "'"⟩] ++
    match kind with
    | .component =>
        [⟨"changeDetection", "ChangeDetectionStrategy.OnPush"⟩,
          ⟨"template", templateLiteral (inlineTemplate template style)⟩]
    | .directive => []

def entryText (entry : MetadataEntry) : Text :=
  entry.key ++ ": " ++ entry.value

def synthesize (names : Names) (template style : Text) (kind : EntityKind) : Text :=
  "import \x7b " ++ coreImports kind ++ " \x7d from '" ++ coreModule ++ "';\n\n@" ++
    kind.decoratorName ++ "(\x7b\n  " ++
    Text.joinWith ",\n  " ((entries names template style kind).map entryText) ++
    "\n\x7d)\nexport default class " ++ entityClassName ++
    " \x7b\n  constructor() \x7b\x7d\n\x7d\n"

end Scaffold

end NgFile
