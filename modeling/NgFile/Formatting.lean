import NgFile.Render
import NgFile.Syntax.Printer

/-!
# Formatted rendering

The plain text of a target is parsed and printed in the standard layout.  The
decorator is printed apart and put in front of the line that exports the class.
-/

namespace NgFile

namespace Formatting

open Syntax

def noClassExport : Text := "formatted output has no default class export"

def reprint (file text : Text) : Except CompileError Text :=
  match Program.parse text with
  | .error e => .error (.outputSyntax file e.reason)
  | .ok program => .ok program.print

/-- Split a text before its first line that begins with `lead`. -/
def splitAtLine? (lead : Text) (atLineStart : Bool) : Text → Option (Text × Text)
  | [] => if atLineStart && lead.isEmpty then some ([], []) else none
  | c :: rest =>
      if atLineStart && Text.beginsWith lead (c :: rest) then some ([], c :: rest)
      else
        (splitAtLine? lead (c == '\n') rest).map fun (before, after) => (c :: before, after)

/-- A text without the white space at its end and one semicolon before that. -/
def withoutEnd (t : Text) : Text :=
  let kept := Text.trimEnd t
  if Text.finishesWith ";" kept then kept.dropLast else kept

def withFinalNewline (t : Text) : Text :=
  if Text.finishesWith "\n" t then t else t ++ ['\n']

/-- A printed decorator in front of the line that exports the class in a printed body. -/
def place? (body decorator : Text) : Option Text :=
  (splitAtLine? Render.classLead true body).map fun (before, after) =>
    withFinalNewline (before ++ '@' :: withoutEnd decorator ++ '\n' :: after)

end Formatting

def Target.format (t : Target) : Except CompileError Text := do
  let file := t.fileName
  let body ← Formatting.reprint file
    (Render.importLines t ++ "\n" ++ Render.entity t.entity)
  let decorator ← Formatting.reprint file (Render.decoratorCall t.entity ++ ";")
  match Formatting.place? body decorator with
  | some text => return text
  | none => throw (.outputSyntax file Formatting.noClassExport)

end NgFile
