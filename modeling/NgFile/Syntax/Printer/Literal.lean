import NgFile.Syntax.Printer.Basic

/-!
# Printed literals

Strings stand between apostrophes, with the escapes that they need; numbers take
their shortest form; keys of members are bare where they can be.
-/

namespace NgFile

namespace Syntax

namespace Printer

open Writing

def stringChar (c : Char) (rest : Text) : Text :=
  let n := c.toNat
  if c == '\x27' then "\\'"
  else if c == '\\' then "\\\\"
  else if c == '\n' then "\\n"
  else if c == '\r' then "\\r"
  else if n == 8 then "\\b"
  else if n == 11 then "\\v"
  else if n == 12 then "\\f"
  else if n == 0 then (if rest.head?.any Char.isDigit then "\\x00" else "\\0")
  else if n == 7 then "\\x07"
  else if n == 0x1B then "\\x1B"
  else if n == 0xA0 then "\\xA0"
  else if n == 0x2028 then "\\u2028"
  else if n == 0x2029 then "\\u2029"
  else [c]

/-- A lone surrogate by its four digits; the digits of U+FFFD stand for that character. -/
def loneSurrogate (digits : Text) : Text :=
  if digits = "fffd" then [Char.ofNat 0xFFFD] else "\\u" ++ digits

/--
The characters of a string between its quotes, after some have been passed over.  Where there
are lone surrogates, U+FFFD has four digits behind it.
-/
def stringBody (lone : Bool) : Nat → Text → Text
  | _, [] => []
  | passed + 1, _ :: rest => stringBody lone passed rest
  | 0, c :: rest =>
      if lone && c.toNat == 0xFFFD then loneSurrogate (rest.take 4) ++ stringBody lone 4 rest
      else if c == '<' && beginsScriptEnd rest then c :: '\\' :: stringBody lone 0 rest
      else stringChar c rest ++ stringBody lone 0 rest

def string (value : StringValue) : Text :=
  '\x27' :: (stringBody value.hasLoneSurrogate 0 value.text ++ ['\x27'])

def template (chunks : List TemplateChunk) (substitutions : List Writing) : Writing :=
  let rec go : List TemplateChunk → List Writing → Writing
    | [], _ => nothing
    | [chunk], _ => withoutScriptEnd chunk.raw
    | chunk :: chunks, s :: more =>
        withoutScriptEnd chunk.raw ++ "$\x7b" ++ s ++ "\x7d" ++ go chunks more
    | chunk :: chunks, [] => withoutScriptEnd chunk.raw ++ go chunks []
  [Text.graveAccent] ++ go chunks substitutions ++ [Text.graveAccent]

def bigint (raw : Text) : Text :=
  bigintText raw ++ ['n']

def key (self : Printers) : Key → Writing
  | .name name => name.text
  | .privateName name => '#' :: name.text
  | .literal e => item self e
  | .computed inner => "[" ++ item self inner ++ "]"

def moduleName : ModuleName → Text
  | .ident name => name.text
  | .string _ value => string value

end Printer

end Syntax

end NgFile
