import NgFile.Syntax.Parser.Basic

/-!
# Keys and patterns

The keys of members, the patterns that bind variables, and the reading of an
expression as the target of an assignment.
-/

namespace NgFile

namespace Syntax

def Pattern.isName : Pattern → Bool
  | .name _ => true
  | _ => false

namespace Parser

def privateName : Parser Name := do
  let m ← mark
  match (← peek).kind with
  | .privateName text =>
      let _ ← advance
      pure ⟨← since m, text⟩
  | _ => fail

def literalKey : Parser Expr := do
  let m ← mark
  match (← peek).kind with
  | .string value =>
      let _ ← advance
      pure (.string (← since m) value)
  | .number value =>
      let _ ← advance
      pure (.number (← since m) value)
  | .bigint raw =>
      let _ ← advance
      pure (.bigint (← since m) raw)
  | _ => fail

def propertyKey (self : Productions) : Parser Key := do
  let token ← peek
  if isPunct .bracketOpen token then
    let _ ← advance
    let inner ← nestedAssignment self
    expect .bracketClose
    pure (.computed inner)
  else if isLiteralKey token then
    pure (.literal (← literalKey))
  else
    pure (.name (← anyName))

def classKey (self : Productions) : Parser Key := do
  match (← peek).kind with
  | .privateName _ => pure (.privateName (← privateName))
  | _ => propertyKey self

def defaultValue (self : Productions) : Parser (Option Expr) := do
  if ← eat .equal then pure (some (← nestedAssignment self))
  else pure none

def patternWithDefault (self : Productions) : Parser Pattern := do
  let m ← mark
  let inner ← self .pattern
  match ← defaultValue self with
  | some value => pure (.withDefault (← since m) inner value)
  | none => pure inner

def patternPart (self : Productions) : Parser Pattern := do
  let m ← mark
  let token ← peek
  let key ← propertyKey self
  match key with
  | .name n =>
      if ← eat .colon then
        let value ← patternWithDefault self
        pure (.keyed (← since m) key value)
      else if isName token then
        let value ← defaultValue self
        pure (.shorthand (← since m) n value)
      else fail
  | _ =>
      expect .colon
      let value ← patternWithDefault self
      pure (.keyed (← since m) key value)

def patternRest (close : Punct) (inner : Parser Pattern) : Parser Pattern := do
  let m ← mark
  expect .ellipsis
  let pattern ← inner
  let loc ← since m
  if ← atPunct close then pure (.rest loc pattern) else fail

def bindingPattern (self : Productions) : Parser Pattern := do
  let m ← mark
  if ← eat .braceOpen then
    let (parts, _) ← commaList .braceClose do
      if ← atPunct .ellipsis then
        patternRest .braceClose (do pure (.name (← bindingName)))
      else patternPart self
    expect .braceClose
    pure (.object (← since m) parts)
  else if ← eat .bracketOpen then
    let (parts, _) ← commaList .bracketClose do
      if ← atPunct .ellipsis then
        patternRest .bracketClose (self .pattern)
      else if ← atPunct .comma then
        pure (.hole (← since (← mark)))
      else patternWithDefault self
    expect .bracketClose
    pure (.array (← since m) parts)
  else
    pure (.name (← bindingName))

end Parser

def Expr.bare : Expr → Expr
  | .paren _ inner => inner.bare
  | .asType _ inner _ => inner.bare
  | .satisfies _ inner _ => inner.bare
  | .nonNull _ inner => inner.bare
  | .assertion _ _ inner => inner.bare
  | e => e

def Expr.isReference : Expr → Bool
  | .ident _ _ | .member _ _ _ _ | .privateMember _ _ _ _ | .index _ _ _ _ => true
  | _ => false

/-- The variable or member that an expression stands for, without the parentheses around it. -/
def Expr.simpleTarget? : Expr → Option Expr
  | .paren _ inner => inner.simpleTarget?
  | e =>
      match e with
      | .ident _ _ | .member _ _ _ _ | .privateMember _ _ _ _ | .index _ _ _ _ => some e
      | .asType _ inner _ | .satisfies _ inner _ | .nonNull _ inner | .assertion _ _ inner =>
          if inner.bare.isReference then some e else none
      | _ => none

/-- An expression that can be assigned to as a pattern; a variable is a name. -/
def Pattern.ofTarget (e : Expr) : Pattern :=
  match e with
  | .ident loc text => .name ⟨loc, text⟩
  | e => .target e

/-- Patterns, and the places of the properties with a default value that became parts of them. -/
abbrev Covered (α : Type) := Option (α × List Nat)

def patternOfPart (target : Expr → Covered Pattern) : Expr → Covered Pattern
  | .assign loc none lhs value => some (.withDefault loc lhs value, [])
  | e => target e

/-- The patterns of the elements of an array literal; a spread must be the last one. -/
def patternsOfElements (target : Expr → Covered Pattern) : List Expr → Covered (List Pattern)
  | [] => some ([], [])
  | .spread loc argument :: more =>
      match more, target argument with
      | [], some (p, starts) => some ([.rest loc p], starts)
      | _, _ => none
  | .hole loc :: more =>
      (patternsOfElements target more).map fun (ps, starts) => (.hole loc :: ps, starts)
  | e :: more =>
      match patternOfPart target e, patternsOfElements target more with
      | some (p, starts), some (ps, others) => some (p :: ps, starts ++ others)
      | _, _ => none

def patternsOfProperties (target : Expr → Covered Pattern) :
    List Property → Covered (List Pattern)
  | [] => some ([], [])
  | .spread loc argument :: more =>
      match more, argument.simpleTarget? with
      | [], some lhs => some ([.rest loc (.ofTarget lhs)], [])
      | _, _ => none
  | .shorthand loc name value :: more =>
      (patternsOfProperties target more).map fun (ps, starts) =>
        (.shorthand loc name value :: ps, if value.isSome then loc.start :: starts else starts)
  | .pair loc key value :: more =>
      match patternOfPart target value, patternsOfProperties target more with
      | some (p, starts), some (ps, others) => some (.keyed loc key p :: ps, starts ++ others)
      | _, _ => none
  | _ :: _ => none

/--
The pattern that an expression stands for on the left of an assignment, with the
depth of nesting bounded by a fuel.  A literal among `spreadCommas` ends in a spread
and a comma, so it is no pattern.
-/
def patternOf? (spreadCommas : List Nat) : Nat → Expr → Covered Pattern
  | 0, _ => none
  | fuel + 1, e =>
      match e with
      | .array loc elements =>
          if spreadCommas.contains loc.start then none
          else
            (patternsOfElements (patternOf? spreadCommas fuel) elements).map fun (ps, starts) =>
              (.array loc ps, starts)
      | .object loc properties =>
          if spreadCommas.contains loc.start then none
          else
            (patternsOfProperties (patternOf? spreadCommas fuel) properties).map
              fun (ps, starts) => (.object loc ps, starts)
      | e => e.simpleTarget?.map fun lhs => (.ofTarget lhs, [])

end Syntax

end NgFile
