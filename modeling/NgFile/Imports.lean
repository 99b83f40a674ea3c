import NgFile.Promotion

/-!
# Component imports

A component lists the components that it uses in its `imports` metadata.  The
default bindings of the imports of component files are appended to that list.
-/

namespace NgFile

open Syntax

def importsKey : Text := "imports"

/-- The texts of the elements of an array literal without its holes; none for anything else. -/
def arrayElements? (text : Text) : Option (List Text) :=
  match Expr.parse text with
  | .ok (.array _ elements) =>
      some ((elements.filter fun e => !e.isHole).map fun e => e.loc.text text)
  | _ => none

def arrayLiteral (elements : List Text) : Text :=
  '[' :: (Text.joinWith ", " elements ++ [']'])

/-- The `imports` value with names added; none if it stays as it is. -/
def extendedImports? (value : Option Text) (names : List Text) : Option Text :=
  match value with
  | none => some (arrayLiteral names)
  | some existing =>
      if names.isEmpty then none
      else (arrayElements? existing).map fun elements => arrayLiteral (elements ++ names)

namespace Target

/-- Add names to the `imports` metadata of a component; empty names do not count. -/
def aggregateImports (t : Target) (names : List Text) : Target :=
  match t.kind with
  | .directive => t
  | .component =>
      let kept := names.filter fun name => !name.isEmpty
      match extendedImports? (t.entity.metadata.get? importsKey) kept with
      | none => t
      | some value =>
          t.mapEntity fun c => { c with metadata := c.metadata.upsert importsKey value }

end Target

end NgFile
