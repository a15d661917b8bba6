/-!
Operators. Each has a rank of its own, so no two different operators bind equally tightly, and a
negation binds more tightly than any operator between two operands.
-/
namespace Rpn

inductive Binary where
  | sub | add | mul | div | pow
deriving DecidableEq, Repr

namespace Binary

def sign : Binary → Char
  | .sub => '-'
  | .add => '+'
  | .mul => '*'
  | .div => '/'
  | .pow => '^'

def rank : Binary → Nat
  | .sub => 1
  | .add => 2
  | .mul => 3
  | .div => 4
  | .pow => 5

end Binary

inductive Operator where
  | binary (op : Binary)
  | negate
deriving DecidableEq, Repr

namespace Operator

-- Postfix notation has no other way to tell a negation from a subtraction than by its sign.
def sign : Operator → Char
  | .binary op => op.sign
  | .negate => 'n'

def rank : Operator → Nat
  | .binary op => op.rank
  | .negate => 6

def arity : Operator → Nat
  | .binary _ => 2
  | .negate => 1

end Operator

end Rpn
