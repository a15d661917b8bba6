import Rpn.CommandLine.Count
import Rpn.Text.ControlSequence
/-!
The arguments of the command line: a file to read, switches, and options that take a value. At most
one source may be named, and a run cannot be both quiet and verbose.
-/
namespace Rpn.CommandLine

inductive Flag where
  | quiet | verbose | stdin | samples | strict | help
deriving DecidableEq, Repr

/-- An option that takes a value. -/
inductive Setting where
  | separator | maxErrors
deriving DecidableEq, Repr

inductive Argument where
  | file
  | flag (flag : Flag)
  | setting (setting : Setting)
deriving DecidableEq, Repr

namespace Flag

def all : List Flag := [quiet, verbose, stdin, samples, strict, help]

def name : Flag → String
  | quiet => "quiet"
  | verbose => "verbose"
  | stdin => "stdin"
  | samples => "samples"
  | strict => "strict"
  | help => "help"

def letter? : Flag → Option Char
  | quiet => some 'q'
  | verbose => some 'v'
  | help => some 'h'
  | stdin | samples | strict => none

def ofName? (name : String) : Option Flag := all.find? fun flag => flag.name == name

def ofLetter? (letter : Char) : Option Flag := all.find? fun flag => flag.letter? == some letter

end Flag

namespace Setting

def all : List Setting := [separator, maxErrors]

def name : Setting → String
  | separator => "separator"
  | maxErrors => "max-errors"

def valueName : Setting → String
  | separator => "sep"
  | maxErrors => "max-errors"

def ofName? (name : String) : Option Setting := all.find? fun setting => setting.name == name

end Setting

namespace Argument

/-- The form in which messages name an argument. -/
def shown : Argument → String
  | .file => "[FILE]"
  | .flag given => s!"--{given.name}"
  | .setting given => s!"--{given.name} <{given.valueName}>"

-- Each pair is listed once and excludes both ways.
def exclusions : List (Argument × Argument) :=
  [(flag .verbose, flag .quiet), (flag .stdin, file), (flag .samples, file),
    (flag .samples, flag .stdin)]

def excludes (a b : Argument) : Bool := exclusions.contains (a, b) || exclusions.contains (b, a)

end Argument

inductive UsageError where
  | repeated (argument : Argument)
  | conflict (argument other : Argument) (others : List Argument)
  | unknown (text : String)
  | missingValue (setting : Setting)
  | unexpectedValue (flag : Flag) (value : String)
  | invalidCount (setting : Setting) (value : String) (error : CountError)
deriving DecidableEq, Repr

namespace UsageError

-- Words of the command line are shown without what steers a terminal.
def shownWord (word : String) : String := String.ofList (Text.withoutControls word.toList)

def message : UsageError → String
  | repeated argument => s!"the argument '{argument.shown}' cannot be used multiple times"
  | conflict argument other [] =>
    s!"the argument '{argument.shown}' cannot be used with '{other.shown}'"
  | conflict argument other others =>
    s!"the argument '{argument.shown}' cannot be used with:" ++
      String.join ((other :: others).map fun argument => s!"\n  {argument.shown}")
  | unknown text => s!"unexpected argument '{shownWord text}' found"
  | missingValue setting =>
    s!"a value is required for '{(Argument.setting setting).shown}' but none was supplied"
  | unexpectedValue flag value =>
    s!"unexpected value '{shownWord value}' for '{(Argument.flag flag).shown}' found; no more were expected"
  | invalidCount setting value error =>
    s!"invalid value '{shownWord value}' for '{(Argument.setting setting).shown}': {error.message}"

end UsageError

end Rpn.CommandLine
