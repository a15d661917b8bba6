import Rpn.Operator
import Rpn.Span
import Rpn.Text.Quoted
/-!
Tokens of infix notation: numbers, operators and the two sides of a parenthesis, each with its place.
-/
namespace Rpn

/-- The two sides of a parenthesis. -/
inductive Side where
  | opening | closing
deriving DecidableEq, Repr

def Side.sign : Side → Char
  | .opening => '('
  | .closing => ')'

/-- What a token is. A number keeps the characters it was written with, its sign among them. -/
inductive Kind where
  | number (lexeme : List Char)
  | operator (op : Operator)
  | paren (side : Side)
deriving DecidableEq, Repr

namespace Kind

def isNumber : Kind → Bool
  | number _ => true
  | _ => false

def isOperator : Kind → Bool
  | operator _ => true
  | _ => false

def isParen : Kind → Bool
  | paren _ => true
  | _ => false

def rank? : Kind → Option Nat
  | operator op => some op.rank
  | _ => none

def lexeme : Kind → List Char
  | number lexeme => lexeme
  | operator op => [op.sign]
  | paren side => [side.sign]

/-- The kind of a token that is a single character other than a digit. -/
def ofChar? : Char → Option Kind
  | '+' => some (operator (.binary .add))
  | '-' => some (operator (.binary .sub))
  | '*' => some (operator (.binary .mul))
  | '/' => some (operator (.binary .div))
  | '^' => some (operator (.binary .pow))
  | '(' => some (paren .opening)
  | ')' => some (paren .closing)
  | _ => none

-- The forms in which log messages show a kind.
def name : Kind → String
  | number _ => "Number"
  | operator (.binary .add) => "Plus"
  | operator (.binary .sub) => "Minus"
  | operator (.binary .mul) => "Star"
  | operator (.binary .div) => "Slash"
  | operator (.binary .pow) => "Power"
  | operator .negate => "UnaryMinus"
  | paren .opening => "LParen"
  | paren .closing => "RParen"

def describe (kind : Kind) : String :=
  match kind with
  | number lexeme => s!"{kind.name}({Text.quoted lexeme})"
  | _ => kind.name

end Kind

abbrev Token := Spanned Kind

end Rpn
