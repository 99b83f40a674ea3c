import NgFile.Syntax.Printer.Statement

/-!
# Printing scripts

The printers of all nodes are tied together here.  Going from a node to a part of it
takes one unit of fuel; the fuel of a tree is that of the text that it was read from.
-/

namespace NgFile

namespace Syntax

namespace Printer

/-- The printers of all nodes of trees up to a depth. -/
def printers : Nat → Printers
  | 0, _ => .nothing
  | fuel + 1, node =>
      let self := printers fuel
      match node with
      | .expr e level around => expression self e level around
      | .stmt s around => statement self around s
      | .type t => type self t

end Printer

def Program.print (p : Program) : Text :=
  let self := Printer.printers (8 * p.length + 64)
  let hashbang : Writing := match p.hashbang with
    | some line => line ++ Writing.newline
    | none => .nothing
  Writing.text (hashbang ++ Printer.directivesAndStatements self .plain p.directives p.body ++
    Writing.commentList p.closing)

end Syntax

end NgFile
