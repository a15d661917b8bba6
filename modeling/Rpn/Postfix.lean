import Rpn.Token
/-!
Postfix notation: numbers and operators in the order in which they are evaluated. There are no
parentheses, so a symbol is a token that is no parenthesis.
-/
namespace Rpn

inductive Symbol where
  | number (lexeme : List Char)
  | operator (op : Operator)
deriving DecidableEq, Repr

namespace Symbol

def lexeme : Symbol → List Char
  | .number lexeme => lexeme
  | .operator op => [op.sign]

-- The number of values that a symbol takes from those before it.
def arity : Symbol → Nat
  | .number _ => 0
  | .operator op => op.arity

end Symbol

def Kind.symbol? : Kind → Option Symbol
  | .number lexeme => some (.number lexeme)
  | .operator op => some (.operator op)
  | .paren _ => none

abbrev Postfix := List (Spanned Symbol)

def Postfix.joined (separator : List Char) (symbols : Postfix) : List Char :=
  separator.intercalate (symbols.map fun symbol => symbol.value.lexeme)

end Rpn
