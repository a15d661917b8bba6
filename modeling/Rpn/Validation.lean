import Rpn.Postfix
import Rpn.Span
/-!
Whether a postfix sequence is one expression. `validate` follows an evaluation without its numbers: it
keeps the span of every value, and a symbol takes as many of the last values as it has operands and
leaves one that covers them and itself.
-/
namespace Rpn

/-- Why a postfix sequence is not one expression. -/
inductive ShapeError where
  | missingOperand
  | extraOperands (count : Nat)
  | empty
deriving DecidableEq, Repr

def ShapeError.message : ShapeError → String
  | missingOperand => "operator is missing an operand"
  | extraOperands count => s!"expected a single result, found {count} values"
  | empty => "empty expression"

namespace Postfix

/-- The values behind a symbol, the last one at the end. -/
def apply (values : Array Span) (symbol : Spanned Symbol) :
    Except (Spanned ShapeError) (Array Span) :=
  let arity := symbol.value.arity
  if values.size < arity then .error ⟨.missingOperand, symbol.span⟩
  else
    let kept := values.size - arity
    let drained := values.extract kept values.size
    .ok ((values.shrink kept).push (drained.foldl Span.join symbol.span))

def evaluate : Array Span → Postfix → Except (Spanned ShapeError) (Array Span)
  | values, [] => .ok values
  | values, symbol :: rest =>
    match apply values symbol with
    | .ok values => evaluate values rest
    | .error error => .error error

/-- Surplus values are reported where they stand, all but the first; an empty sequence has no place of
its own and is reported at `source`. -/
def validate (source : Span) (symbols : Postfix) : Except (Spanned ShapeError) Unit :=
  match evaluate #[] symbols with
  | .error error => .error error
  | .ok values =>
    match values.toList with
    | [_] => .ok ()
    | [] => .error ⟨.empty, source⟩
    | _ :: first :: more =>
      .error ⟨.extraOperands values.size, (first :: more).foldl Span.join first⟩

end Postfix

end Rpn
