import Rpn.Validation
import Rpn.Cursor
import Rpn.Shunting
/-!
Conversion of a text from infix to postfix notation. `toPostfix` asks for valid characters and
matching parentheses only; `convert` also asks that the result be one expression.
-/
namespace Rpn

/-- Why a text cannot be converted. Scanning reports all invalid characters at once. -/
inductive ConvertError where
  | scan (errors : List (Spanned ScanError))
  | parens (error : Spanned ParenError)
  | shape (error : Spanned ShapeError)
deriving DecidableEq, Repr

/-- The single errors in the order in which they are reported, with their messages. -/
def ConvertError.messages : ConvertError → List (Spanned String)
  | scan errors => errors.map (·.map ScanError.message)
  | parens error => [error.map ParenError.message]
  | shape error => [error.map ShapeError.message]

def toPostfix (mode : Mode) (text : List Char) : Except ConvertError Postfix :=
  match scan mode text with
  | .error errors => .error (.scan errors)
  | .ok tokens => (parse tokens).mapError .parens

def convert (mode : Mode) (text : List Char) : Except ConvertError Postfix :=
  match toPostfix mode text with
  | .error error => .error error
  | .ok symbols =>
    match symbols.validate (Text.whole text) with
    | .ok () => .ok symbols
    | .error error => .error (.shape error)

end Rpn
