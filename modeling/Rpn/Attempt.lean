import Rpn.Conversion
import Rpn.Report.Event
import Rpn.Report.Trace
/-!
Converting one text with a report on it, as `convert_one` does. A text that cannot be converted is
reported with its first errors, as many as the settings allow, and with the number of all. A result
that is not one complete expression is a result all the same, with a warning. Log records pass the
level of the logger; `report` and `warn_incomplete` each ask on their own whether the run is quiet.
-/
namespace Rpn

/-- How texts are converted, and what is told of it. `level` is the least level of the log records
that are written, if any are. -/
structure Settings where
  mode : Mode := .tolerant
  separator : List Char := []
  maxErrors : Nat := 4
  quiet : Bool := false
  level : Option Level := some .warn
deriving DecidableEq, Repr

def Settings.log (settings : Settings) (note : Note) : List Event :=
  if settings.level.any fun least => least.rank ≤ note.level.rank then [.note note] else []

structure Attempt where
  result : Option Postfix
  events : List Event
deriving DecidableEq, Repr

namespace Attempt

def located (severity : Severity) (name : String) (text : List Char) (error : Spanned String) :
    Event :=
  .diagnostic { severity, message := error.value, label := some ⟨name, text, error.span⟩ }

/-- What `warn_incomplete` tells of a result. The record has its own gate, so the check for quiet
stands behind it. -/
def incomplete (settings : Settings) (name : String) (text : List Char)
    (error : Spanned ShapeError) : List Event :=
  settings.log (.incomplete name error.value) ++
    if settings.quiet then [] else [located .warning name text (error.map ShapeError.message)]

def warnings (settings : Settings) (name : String) (text : List Char) (symbols : Postfix) :
    List Event :=
  match symbols.validate (Text.whole text) with
  | .ok () => []
  | .error error => incomplete settings name text error

def summary (name : String) (errors emitted : Nat) : String :=
  let noun := if errors > 1 then "errors" else "error"
  s!"could not convert {name} due to {errors} previous {noun} ({emitted} emitted)"

/-- The diagnostics so far, with their number. -/
structure Display where
  displayed : Nat := 0
  events : Array Event := #[]
deriving DecidableEq, Repr

def Display.add (name : String) (text : List Char) (display : Display) (error : Spanned String) :
    Display where
  displayed := display.displayed + 1
  events := display.events.push (located .error name text error)

/-- What `report` tells of the errors of a text. -/
def failures (settings : Settings) (name : String) (text : List Char)
    (errors : List (Spanned String)) : List Event :=
  if settings.quiet then []
  else
    let shown := (errors.take settings.maxErrors).foldl (Display.add name text) {}
    shown.events.toList ++
      [.diagnostic { message := summary name errors.length shown.displayed }]

def log (settings : Settings) (text : List Char) : List Event :=
  (Note.converting text settings.mode :: trace settings.mode text).flatMap settings.log

def ofText (settings : Settings) (name : String) (text : List Char) : Attempt :=
  match toPostfix settings.mode text with
  | .ok symbols => ⟨some symbols, log settings text ++ warnings settings name text symbols⟩
  | .error error => ⟨none, log settings text ++ failures settings name text error.messages⟩

/-- The attempt with its result, where it has one, written behind everything else. -/
def announce (write : Postfix → List Char) (attempt : Attempt) : Attempt :=
  { attempt with
    events := attempt.events ++ (attempt.result.map fun symbols => .result (write symbols)).toList }

end Attempt

end Rpn
