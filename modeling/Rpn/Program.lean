import Rpn.Batch
import Rpn.CommandLine.Help
import Rpn.CommandLine.Parse
import Rpn.Environment
import Rpn.Samples
import Rpn.Session
import Rpn.Text.Blank
/-!
The program as a function of its arguments and of what it can read. `input` opens the source that the
options name, which is the part of `from_config` that can fail, `perform` is the driver's `run` on it,
and `report` puts both together as `main` does. A source that cannot be read ends a run before there are
settings, so `main` asks for itself whether to be quiet.
-/
namespace Rpn

structure Outcome where
  output : String := ""
  errors : String := ""
  code : Nat := 0
deriving DecidableEq, Repr

namespace Program

/-- What a run works on. A text has the name by which its reports call it. -/
inductive Input where
  | samples
  | text (name : String) (content : List Char)
  | prompt
deriving DecidableEq, Repr

-- The source has one name in its own reports, and one in the report that it cannot be read.
def read (name unread : String) (bytes : Except ReadError ByteArray) : Except String Input :=
  match bytes.bind decode with
  | .ok text => .ok (.text name text)
  | .error error => .error s!"could not read {unread}: {error.reason}"

def input (options : Options) (environment : Environment) : Except String Input :=
  match options.source with
  | .samples => .ok .samples
  | .stdin => read "<stdin>" "stdin" environment.stdin
  | .file path => read path path (environment.file path)
  | .prompt => .ok .prompt

def session (settings : Settings) (lines : List String) : Report :=
  { events := lines.flatMap fun line => Session.answer settings line.toList }

/-- A message without a place in a source, as `report_simple` tells it. -/
def unlabelled (settings : Settings) (message : String) : List Event :=
  if settings.quiet then [] else [.diagnostic { message }]

def perform (settings : Settings) (environment : Environment) : Input → Report
  | .samples => Batch.run settings "<samples>" (samples.map String.toList)
  | .text name content => Batch.run settings name (Text.lines content)
  | .prompt =>
    match environment.terminal with
    | some lines => session settings lines
    | none =>
      { events := unlabelled settings s!"editor failed: {ReadError.noTerminal.reason}"
        failed := true }

def report (options : Options) (environment : Environment) : Report :=
  match input options environment with
  | .ok input => perform options.settings environment input
  | .error message =>
    { events := if options.quiet then [] else [.diagnostic { message }]
      failed := true }

def write (report : Report) : Outcome :=
  { output := unlines (report.events.flatMap Event.outputLines)
    errors := unlines (report.events.flatMap Event.errorLines)
    code := if report.failed then 1 else 0 }

def stop : CommandLine.Stop → Outcome
  | .help detailed => { output := unlines (CommandLine.Help.lines detailed) }
  | .usage error => { errors := unlines [s!"error: {error.message}"], code := 2 }

def run (arguments : List String) (environment : Environment) : Outcome :=
  match CommandLine.parse arguments with
  | .ok options => write (report options environment)
  | .error reason => stop reason

end Program

end Rpn
