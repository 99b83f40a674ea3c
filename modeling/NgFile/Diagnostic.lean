import NgFile.Error

/-!
# Diagnostics

A compile error as it is handed to other programs: code, message and file, and
the compact JSON text of these three.
-/

namespace NgFile

structure Diagnostic where
  code : Text
  message : Text
  file : Text
  deriving DecidableEq

namespace Diagnostic

def ofError (e : CompileError) : Diagnostic :=
  ⟨e.code, e.message, e.file⟩

/-- A character inside a JSON string; only what must be escaped is. -/
def escapedChar (c : Char) : Text :=
  if c == '\x22' || c == '\\' then ['\\', c]
  else if c == '\n' then "\\n"
  else if c == '\r' then "\\r"
  else if c == '\t' then "\\t"
  else if c.toNat == 8 then "\\b"
  else if c.toNat == 12 then "\\f"
  else if c.toNat < 32 then
    let digits := Text.hexOfNat c.toNat
    "\\u" ++ List.replicate (4 - digits.length) '0' ++ digits
  else [c]

def jsonString (t : Text) : Text :=
  "\x22" ++ t.flatMap escapedChar ++ "\x22"

/-- The JSON object of a diagnostic, without any blanks. -/
def wire (d : Diagnostic) : Text :=
  "\x7b\x22code\x22:" ++ jsonString d.code ++ ",\x22message\x22:" ++ jsonString d.message ++
    ",\x22file\x22:" ++ jsonString d.file ++ "\x7d"

end Diagnostic

end NgFile
