import NgFile.Syntax.Printer.Page
import NgFile.Syntax.Precedence

/-!
# Printers

A printer turns a node into a writing.  The printers of nodes that contain one another
are given to each other, so that each of them is a plain definition.
-/

namespace NgFile

namespace Syntax

structure Surroundings where
  /-- Whether a bare `in` would be taken for that of a loop. -/
  forbidIn : Bool
  /-- Whether a bare call would be taken for that of a `new`. -/
  forbidCall : Bool
  deriving DecidableEq

namespace Surroundings

def plain : Surroundings :=
  ⟨false, false⟩

def loopHead : Surroundings :=
  ⟨true, false⟩

def allowingCall (around : Surroundings) : Surroundings :=
  { around with forbidCall := false }

def allowingIn (around : Surroundings) : Surroundings :=
  { around with forbidIn := false }

end Surroundings

inductive Node
  | expr (e : Expr) (level : Precedence) (around : Surroundings)
  | stmt (s : Stmt) (around : Surroundings)
  | type (t : Ty)

abbrev Printers : Type :=
  Node → Writing

namespace Printer

open Writing

def exprAt (self : Printers) (level : Precedence) (e : Expr) : Writing :=
  self (.expr e level .plain)

def expr (self : Printers) (e : Expr) : Writing :=
  exprAt self .lowest e

def item (self : Printers) (e : Expr) : Writing :=
  exprAt self .comma e

def typed (self : Printers) (t : Option Ty) : Writing :=
  preceded ": " (t.map fun t => self (.type t))

def valued (self : Printers) (around : Surroundings) (e : Option Expr) : Writing :=
  preceded " = " (e.map fun e => self (.expr e .comma around))

def statements (self : Printers) (around : Surroundings) (body : List Stmt) : Writing :=
  concat (body.map fun s => self (.stmt s around))

end Printer

end Syntax

end NgFile
