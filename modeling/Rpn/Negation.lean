import Rpn.Token
/-!
Which minus signs negate, as `is_unary` decides. A minus in front of the whole expression negates a
number or a group; a minus behind an operator or an opening parenthesis negates a number; every other
minus subtracts. Only the two neighbours count, and a neighbouring minus counts as an operator either
way.
-/
namespace Rpn.Negation

def negates (before after : Option Kind) : Bool :=
  match before, after with
  | _, none => false
  | none, some after => after.isNumber || after == .paren .opening
  | some before, some after =>
    (before.isOperator || before == .paren .opening) && after.isNumber

def resolve (before after : Option Kind) (kind : Kind) : Kind :=
  if kind = .operator (.binary .sub) ∧ negates before after then .operator .negate else kind

def markFrom (before : Option Kind) : List Token → List Token
  | [] => []
  | token :: rest =>
    token.map (resolve before (rest.head?.map Spanned.value)) :: markFrom (some token.value) rest

def mark (tokens : List Token) : List Token := markFrom none tokens

end Rpn.Negation
