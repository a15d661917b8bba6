import Rpn.Attempt
import Rpn.CommandLine.Argument
/-!
What a command line asks for.
-/
namespace Rpn

structure Options where
  file : Option String := none
  quiet : Bool := false
  verbose : Bool := false
  stdin : Bool := false
  samples : Bool := false
  strict : Bool := false
  separator : String := ""
  maxErrors : Nat := 4
deriving DecidableEq, Repr

inductive Source where
  | samples
  | stdin
  | file (path : String)
  | prompt
deriving DecidableEq, Repr

namespace Options

def verbosity (options : Options) : Verbosity :=
  if options.quiet then .quiet else if options.verbose then .verbose else .normal

def settings (options : Options) : Settings where
  mode := if options.strict then .strict else .tolerant
  separator := options.separator.toList
  maxErrors := options.maxErrors
  quiet := options.quiet
  level := options.verbosity.threshold?

def source (options : Options) : Source :=
  if options.samples then .samples
  else if options.stdin then .stdin
  else
    match options.file with
    | some path => .file path
    | none => .prompt

def raise (options : Options) : CommandLine.Flag → Options
  | .quiet => { options with quiet := true }
  | .verbose => { options with verbose := true }
  | .stdin => { options with stdin := true }
  | .samples => { options with samples := true }
  | .strict => { options with strict := true }
  | .help => options

end Options

end Rpn
