import Rpn.Report.Note
import Rpn.Shunting
/-!
The same conversion with one stack for operators and parentheses, and its log. `yield` and `place` are
`push_operator`: a parenthesis has no rank, so the operators under it stay where they are when another
one arrives. `close` is `close_paren`: it takes away the nearest opening parenthesis and all that stands
above it; where it meets another closing one first, or none at all, the closing one stays on the stack
for `finish`. A turn is one round of the loop of `parse`.
-/
namespace Rpn

/-- The tokens, the position of the next one and the kind of the last one, the stack with its top
first, what has gone out, and the log. -/
structure Yard where
  tokens : List Token
  position : Nat := 0
  previous : Option Kind := none
  stack : List Token := []
  output : Postfix := []
  notes : List Note := []
deriving DecidableEq, Repr

namespace Yard

def ahead (yard : Yard) (count : Nat) : Option Token := yard.tokens[yard.position + count]?

-- Parentheses do not go out.
def emit (output : Postfix) (token : Token) : Postfix :=
  match token.value.symbol? with
  | some symbol => output ++ [⟨symbol, token.span⟩]
  | none => output

-- What has no rank ranks below every operator.
def ranksAbove (top arriving : Kind) : Bool :=
  match top.rank?, arriving.rank? with
  | none, _ => false
  | some _, none => true
  | some high, some low => low < high

-- Nothing but an operator has a rank, so nothing else is popped by one.
def popped (token : Token) : List Note :=
  match token.value with
  | .operator op => [.pop op]
  | .number _ | .paren _ => []

/-- The stack, the output and the log when all that ranks above an arriving operator has gone out. -/
def yield (arriving : Token) : List Token → Postfix → List Note → List Token × Postfix × List Note
  | [], output, notes => ([], output, notes)
  | top :: stack, output, notes =>
    if ranksAbove top.value arriving.value then
      yield arriving stack (emit output top) (notes ++ popped top)
    else (top :: stack, output, notes)

/-- The stack and the output when a closing parenthesis has looked for its partner, and what is noted
of it. -/
def close (closing : Token) : List Token → Postfix → List Token × Postfix × List Note
  | [], output => ([closing], output, [.unmatched closing.span])
  | top :: stack, output =>
    match top.value with
    | .paren .opening => (stack, output, [])
    | .paren .closing => (closing :: top :: stack, output, [.unmatched closing.span])
    | _ => close closing stack (emit output top)

def place (yard : Yard) (token : Token) : Yard :=
  match token.value with
  | .number _ => { yard with output := emit yard.output token }
  | .operator op =>
    let (stack, output, notes) := yield token yard.stack yard.output yard.notes
    { yard with stack := token :: stack, output, notes := notes ++ [.push op] }
  | .paren .opening => { yard with stack := token :: yard.stack }
  | .paren .closing =>
    let (stack, output, notes) := close token yard.stack yard.output
    { yard with stack, output, notes := yard.notes ++ notes }

-- A minus is read with the kinds of its neighbours as it is placed, and noted if that makes it another.
def turn (yard : Yard) : Yard :=
  match yard.ahead 0 with
  | none => yard
  | some token =>
    let read := token.map (Negation.resolve yard.previous ((yard.ahead 1).map Spanned.value))
    let noted : List Note := if read.value = token.value then [] else [.negation token.span]
    { { yard with notes := yard.notes ++ noted }.place read with
      position := yard.position + 1, previous := some read.value }

def turns (yard : Yard) : Nat → Yard
  | 0 => yard
  | count + 1 => (yard.turns count).turn

def finish : List Token → Postfix → Except (Spanned ParenError) Postfix
  | [], output => .ok output
  | top :: stack, output =>
    match top.value with
    | .paren side => .error ⟨.ofSide side, top.span⟩
    | _ => finish stack (emit output top)

def convert (tokens : List Token) : Except (Spanned ParenError) Postfix :=
  let final := turns { tokens } tokens.length
  finish final.stack final.output

def log (tokens : List Token) : List Note := (turns { tokens } tokens.length).notes

end Yard

end Rpn
