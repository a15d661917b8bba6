import Rpn.Report.Note
import Rpn.Shunting
/-!
The log of one conversion. First come the notes on the pieces of the text, one for each token and, in
tolerant mode, one for each character passed over. Where scanning succeeds, the notes on what the
tokens made happen to the waiting operators follow. An operator that goes out because its group ends
leaves no note.
-/
namespace Rpn

def Piece.note? (mode : Mode) : Piece → Option Note
  | .token found => some (.token found)
  | .invalid c =>
    match mode with
    | .tolerant => some (.skipping c)
    | .strict => none

def Shunting.Action.note? : Shunting.Action → Option Note
  | .operand _ => none
  | .negation place => some (.negation place)
  | .yield op => some (.pop op.value)
  | .hold op => some (.push op.value)
  | .release _ => none
  | .unmatched place => some (.unmatched place)

namespace Trace

def ofPieces (mode : Mode) (pieces : List Piece) : List Note :=
  pieces.filterMap (Piece.note? mode)

def ofTokens (tokens : List Token) : List Note :=
  (Shunting.run {} (Negation.mark tokens)).2.filterMap Shunting.Action.note?

end Trace

def trace (mode : Mode) (text : List Char) : List Note :=
  Trace.ofPieces mode (Cursor.ofText text).pieces ++
    match scan mode text with
    | .ok tokens => Trace.ofTokens tokens
    | .error _ => []

end Rpn
