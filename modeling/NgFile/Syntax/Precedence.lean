import NgFile.Syntax.Tree

/-!
# Operators

How strongly operators bind, and how they are spelled.  Reading and printing go
by the same table.
-/

namespace NgFile

namespace Syntax

/-- The levels of binding, weakest first. -/
inductive Precedence
  | lowest
  | comma
  | spread
  | yielded
  | assign
  | conditional
  | coalesce
  | or
  | and
  | bitOr
  | bitXor
  | bitAnd
  | equality
  | comparison
  | shift
  | additive
  | multiplicative
  | exponent
  | leading
  | trailing
  | construct
  | call
  | member
  deriving DecidableEq

namespace Precedence

def rank : Precedence → Nat
  | lowest => 0
  | comma => 1
  | spread => 2
  | yielded => 3
  | assign => 4
  | conditional => 5
  | coalesce => 6
  | or => 7
  | and => 8
  | bitOr => 9
  | bitXor => 10
  | bitAnd => 11
  | equality => 12
  | comparison => 13
  | shift => 14
  | additive => 15
  | multiplicative => 16
  | exponent => 17
  | leading => 18
  | trailing => 19
  | construct => 20
  | call => 21
  | member => 22

def atLeast (p q : Precedence) : Bool :=
  q.rank ≤ p.rank

def weaker : Precedence → Precedence
  | lowest => lowest
  | comma => lowest
  | spread => comma
  | yielded => spread
  | assign => yielded
  | conditional => assign
  | coalesce => conditional
  | or => coalesce
  | and => or
  | bitOr => and
  | bitXor => bitOr
  | bitAnd => bitXor
  | equality => bitAnd
  | comparison => equality
  | shift => comparison
  | additive => shift
  | multiplicative => additive
  | exponent => multiplicative
  | leading => exponent
  | trailing => leading
  | construct => trailing
  | call => construct
  | member => call

end Precedence

namespace BinaryOp

def precedence : BinaryOp → Precedence
  | equal | notEqual | identical | notIdentical => .equality
  | less | lessEqual | greater | greaterEqual | inOp | instanceOf => .comparison
  | shiftLeft | shiftRight | shiftRightZero => .shift
  | add | subtract => .additive
  | multiply | divide | remainder => .multiplicative
  | power => .exponent
  | bitOr => .bitOr
  | bitXor => .bitXor
  | bitAnd => .bitAnd
  | or => .or
  | and => .and
  | coalesce => .coalesce

def text : BinaryOp → Text
  | equal => "=="
  | notEqual => "!="
  | identical => "==="
  | notIdentical => "!=="
  | less => "<"
  | lessEqual => "<="
  | greater => ">"
  | greaterEqual => ">="
  | inOp => "in"
  | instanceOf => "instanceof"
  | shiftLeft => "<<"
  | shiftRight => ">>"
  | shiftRightZero => ">>>"
  | add => "+"
  | subtract => "-"
  | multiply => "*"
  | divide => "/"
  | remainder => "%"
  | power => "**"
  | bitOr => "|"
  | bitXor => "^"
  | bitAnd => "&"
  | or => "||"
  | and => "&&"
  | coalesce => "??"

/-- Whether a chain of equal operators groups to the right. -/
def groupsRight (op : BinaryOp) : Bool :=
  op == power

end BinaryOp

def UnaryOp.text : UnaryOp → Text
  | .plus => "+"
  | .minus => "-"
  | .not => "!"
  | .complement => "~"
  | .typeOf => "typeof"
  | .void => "void"
  | .delete => "delete"

def UnaryOp.isWord : UnaryOp → Bool
  | .typeOf | .void | .delete => true
  | _ => false

end Syntax

end NgFile
