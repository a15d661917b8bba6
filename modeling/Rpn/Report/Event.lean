import Rpn.Report.Diagnostic
import Rpn.Report.Note
/-!
What a run makes known, in order: results on the standard output, and log records and diagnostics on
the standard error output.
-/
namespace Rpn

inductive Verbosity where
  | quiet | normal | verbose
deriving DecidableEq, Repr

inductive Event where
  | result (text : List Char)
  | note (record : Note)
  | diagnostic (report : Diagnostic)
deriving DecidableEq, Repr

/-- The least level of the log records that are written, if any are. -/
def Verbosity.threshold? : Verbosity → Option Level
  | quiet => none
  | normal => some .warn
  | verbose => some .debug

namespace Event

def outputLines : Event → List String
  | .result text => [String.ofList text]
  | _ => []

def errorLines : Event → List String
  | .result _ => []
  | .note record => [record.line]
  | .diagnostic report => report.lines

end Event

/-- What a run makes known, and whether it failed. -/
structure Report where
  events : List Event
  failed : Bool := false
deriving DecidableEq, Repr

def unlines (lines : List String) : String := String.join (lines.map (· ++ "\n"))

end Rpn
