import NgFile.Syntax.Parser.Statement

/-!
# Reading scripts

The productions of the grammar are tied together here.  Every use of a production
inside another takes one unit of fuel, and there are only a few of them between two
tokens, so the fuel of a text is in proportion to its length.  A text that is nested
deeper than its fuel is not read.
-/

namespace NgFile

namespace Syntax

namespace Parser

/-- The parser of each part of the grammar, for nestings up to a fuel. -/
def productions : Nat → Productions
  | 0, _ => fail
  | fuel + 1, goal =>
      let self := productions fuel
      match goal with
      | .assignment returnTypes => assignment self returnTypes
      | .expression => expression self
      | .binary above => binary self above
      | .unary => unary self
      | .leftHandSide => leftHandSide self
      | .primary => primary self
      | .type => type self
      | .typeOperator => prefixedType self
      | .typePrimary => plainType self
      | .returnType => returnType self
      | .pattern => bindingPattern self
      | .statement place => statement self place

def fuelFor (source : Text) : Nat :=
  8 * source.length + 64

def topContext (source : Text) : Context where
  source := source
  limit := source.length + 1
  allowIn := true
  inAwait := true
  inYield := false
  inFunction := false
  inDecorator := false
  inAmbient := false
  allowConditional := true

def topStatements (self : Productions) : Parser (List Stmt) :=
  many do
    if (← peek).kind == .stop then pure none
    else pure (some (← self (.statement .listed)))

/-- Check that all properties with a default value are parts of a pattern. -/
def checkDefaults : Parser Unit := fun _ cursor =>
  match cursor.defaults with
  | [] => .ok ((), cursor)
  | n :: _ => .error ⟨n⟩

def hashbang? (source : Text) : Option Text :=
  match skipHashbang source with
  | (0, _) => none
  | (n, _) => some (source.take n)

def program (self : Productions) : Parser Program := do
  let statements ← topStatements self
  let closing := (← peek).comments
  checkDefaults
  let source := (← context).source
  let (directives, body) := splitDirectives source statements
  pure
    { directives := directives
      body := body
      closing := closing
      hashbang := hashbang? source
      length := source.length }

def run {α : Type} (p : Productions → Parser α) (source : Text) : Except SyntaxError α :=
  match p (productions (fuelFor source)) (topContext source) ⟨tokens source, 0, [], []⟩ with
  | .ok (a, _) => .ok a
  | .error e => .error e

end Parser

def Program.parse (source : Text) : Except SyntaxError Program :=
  Parser.run Parser.program source

/--
The expression at the front of a text.  The token after it is read, so it must be well-formed,
but it may be anything.
-/
def Expr.parse (source : Text) : Except SyntaxError Expr :=
  Parser.run (fun self => do
    let e ← self .expression
    Parser.checkDefaults
    if (← Parser.peek).kind == .invalid then Parser.fail
    pure e) source

end Syntax

end NgFile
