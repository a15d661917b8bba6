import Rpn.Negation
import Rpn.Postfix
/-!
From infix to postfix order in one pass. Numbers go straight to the output. Operators wait; one that
waits goes out when an operator of lower rank arrives in the same group, or when its group ends. An
opening parenthesis starts a group, and the operators outside it wait until the group is closed. A
closing parenthesis without a partner starts a group as well, one that nothing can close, so from
there on the conversion cannot succeed any more. `step` is one round of the loop of `parse`: `hold` does
the work of `push_operator` and `closeGroup` that of `close_paren`, with a stack for each group where
these share one.
-/
namespace Rpn

inductive ParenError where
  | unclosed
  | unmatched
deriving DecidableEq, Repr

def ParenError.message : ParenError → String
  | unclosed => "unclosed '('"
  | unmatched => "unmatched ')'"

-- What a parenthesis that is left over means.
def ParenError.ofSide : Side → ParenError
  | .opening => unclosed
  | .closing => unmatched

namespace Shunting

/-- A parenthesis that still has no partner, and the operators that wait outside it. -/
structure Group where
  paren : Spanned Side
  outside : List (Spanned Operator) := []
deriving DecidableEq, Repr

/-- The operators that wait in the innermost group, the latest first, and the groups around them from
the inside out. -/
structure Stack where
  waiting : List (Spanned Operator) := []
  groups : List Group := []
deriving DecidableEq, Repr

/-- What a token makes happen. An operator that yields goes out before an arriving operator of lower
rank; one that is released goes out because its group ends. -/
inductive Action where
  | operand (number : Spanned (List Char))
  | negation (place : Span)
  | yield (op : Spanned Operator)
  | hold (op : Spanned Operator)
  | release (op : Spanned Operator)
  | unmatched (place : Span)
deriving DecidableEq, Repr

namespace Action

-- The symbol that goes out.
def symbol? : Action → Option (Spanned Symbol)
  | .operand number => some (number.map .number)
  | .yield op => some (op.map .operator)
  | .release op => some (op.map .operator)
  | .negation _ => none
  | .hold _ => none
  | .unmatched _ => none

def ofArrival (op : Spanned Operator) : List Action :=
  match op.value with
  | .negate => [.negation op.span]
  | .binary _ => []

end Action

namespace Stack

def yieldsTo (arriving waiting : Spanned Operator) : Bool :=
  arriving.value.rank < waiting.value.rank

def hold (stack : Stack) (op : Spanned Operator) : Stack × List Action :=
  ({ stack with waiting := op :: stack.waiting.dropWhile (yieldsTo op) },
    Action.ofArrival op ++ (stack.waiting.takeWhile (yieldsTo op)).map .yield ++ [.hold op])

def released (stack : Stack) : List Action := stack.waiting.map .release

def openGroup (stack : Stack) (place : Span) : Stack :=
  { groups := ⟨⟨.opening, place⟩, stack.waiting⟩ :: stack.groups }

def closeGroup (stack : Stack) (place : Span) : Stack × List Action :=
  match stack.groups with
  | ⟨⟨.opening, _⟩, outside⟩ :: groups => ({ waiting := outside, groups }, stack.released)
  | groups => ({ groups := ⟨⟨.closing, place⟩, []⟩ :: groups }, stack.released ++ [.unmatched place])

end Stack

def step (stack : Stack) (token : Token) : Stack × List Action :=
  match token.value with
  | .number lexeme => (stack, [.operand ⟨lexeme, token.span⟩])
  | .operator op => stack.hold ⟨op, token.span⟩
  | .paren .opening => (stack.openGroup token.span, [])
  | .paren .closing => stack.closeGroup token.span

def run (stack : Stack) : List Token → Stack × List Action
  | [] => (stack, [])
  | token :: rest =>
    let now := step stack token
    let later := run now.1 rest
    (later.1, now.2 ++ later.2)

theorem run_append (stack : Stack) (front back : List Token) :
    run stack (front ++ back) =
      ((run (run stack front).1 back).1, (run stack front).2 ++ (run (run stack front).1 back).2) := by
  induction front generalizing stack with
  | nil => simp [run]
  | cons token rest ih => simp [run, ih]

/-- At the end the innermost group that is still open is an error; without one, all that waits goes
out. -/
def finish (stack : Stack) : Except (Spanned ParenError) (List Action) :=
  match stack.groups with
  | [] => .ok stack.released
  | group :: _ => .error (group.paren.map .ofSide)

end Shunting

def parse (tokens : List Token) : Except (Spanned ParenError) Postfix :=
  let final := Shunting.run {} (Negation.mark tokens)
  match Shunting.finish final.1 with
  | .ok last => .ok ((final.2 ++ last).filterMap Shunting.Action.symbol?)
  | .error error => .error error

end Rpn
