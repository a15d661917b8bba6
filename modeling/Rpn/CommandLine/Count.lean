/-!
Counts written in decimal. A plus sign may stand in front. The text is read from the left, and the
first digit that is wrong, or that makes the value leave the range, decides what is reported.
-/
namespace Rpn.CommandLine

inductive CountError where
  | empty
  | invalidDigit
  | tooLarge
deriving DecidableEq, Repr

def CountError.message : CountError → String
  | empty => "cannot parse integer from empty string"
  | invalidDigit => "invalid digit found in string"
  | tooLarge => "number too large to fit in target type"

namespace Count

def bound : Nat := UInt64.size

def digit? (c : Char) : Option Nat :=
  if c.isDigit then some (c.toNat - '0'.toNat) else none

def readDigits : Nat → List Char → Except CountError Nat
  | value, [] => .ok value
  | value, c :: rest =>
    match digit? c with
    | none => .error .invalidDigit
    | some digit =>
      if 10 * value + digit < bound then readDigits (10 * value + digit) rest else .error .tooLarge

def read : List Char → Except CountError Nat
  | [] => .error .empty
  | ['+'] => .error .invalidDigit
  | '+' :: digits => readDigits 0 digits
  | digits => readDigits 0 digits

end Count

end Rpn.CommandLine
