import NgFile.Text.Case

/-!
# Names of a component

A component is named after its file.  From the one identifier in the file name
come the variants that the generated class needs: kebab case, camel case,
Pascal case and constant case, and the selector that joins three of them.
-/

namespace NgFile

structure Names where
  fileName : Text
  className : Text
  constantName : Text
  propertyName : Text
  deriving DecidableEq

namespace Names

def isWordChar (c : Char) : Bool :=
  c.isAlphanum

/--
Drop everything but ASCII letters and digits, and raise each one that follows
a dropped character.  `boundary` says whether the text before ends in one.
-/
def joinWords (boundary : Bool) : Text → Text
  | [] => []
  | c :: rest =>
      if isWordChar c then (if boundary then c.toUpper else c) :: joinWords false rest
      else joinWords true rest

def uncapitalized : Text → Text
  | [] => []
  | c :: rest => c.toLower :: rest

def capitalized : Text → Text
  | [] => []
  | c :: rest => c.toUpper :: rest

/-- Put a hyphen between a small letter or digit and a capital after it. -/
def hyphenated : Text → Text
  | [] => []
  | [c] => [c]
  | c :: d :: rest =>
      if (c.isLower || c.isDigit) && d.isUpper then c :: '-' :: hyphenated (d :: rest)
      else c :: hyphenated (d :: rest)

def dashFor (c : Char) : Char :=
  if c = ' ' || c = '_' then '-' else c

/-- Turn blanks and low lines into hyphens, but keep a low line in front. -/
def dashed : Text → Text
  | [] => []
  | c :: rest => (if c = '_' then c else dashFor c) :: rest.map dashFor

/-- Camel case: `my-comp` becomes `myComp`. -/
def toPropertyName (identifier : Text) : Text :=
  uncapitalized (joinWords false identifier)

/-- Kebab case: `HelloWorld` becomes `hello-world`. -/
def toFileName (identifier : Text) : Text :=
  dashed (Text.lowered (hyphenated identifier))

/--
Constant case: `HelloWorld` becomes `HELLO_WORLD`.  An identifier that is all
upper case is one word, so it is lower-cased first.
-/
def toConstantName (identifier : Text) : Text :=
  let words := if Text.isRaised identifier then Text.lowered identifier else identifier
  Text.raisedAscii
    ((toFileName (toPropertyName words)).map fun c => if isWordChar c then c else '_')

def ofIdentifier (identifier : Text) : Names :=
  let propertyName := toPropertyName identifier
  { fileName := toFileName identifier
    className := capitalized propertyName
    constantName := toConstantName identifier
    propertyName := propertyName }

/-- The default selector: file name, class name and constant name. -/
def selector (names : Names) : Text :=
  names.fileName ++ "," ++ names.className ++ "," ++ names.constantName

def lastSegment (path : Text) : Text :=
  (Text.pieces '/' path).getLast (Text.pieces_ne_nil '/' path)

/--
The identifier of the component in a file: the last segment of the path up to
its first full stop; none when that is empty.
-/
def componentIdentifier? (path : Text) : Option Text :=
  match (lastSegment path).takeWhile (· ≠ '.') with
  | [] => none
  | stem => some stem

end Names

end NgFile
