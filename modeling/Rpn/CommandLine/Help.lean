import Rpn.CommandLine.Argument
/-!
Help texts. The short form has one line for each argument, with the descriptions in a column; the
detailed form gives each argument a paragraph.
-/
namespace Rpn.CommandLine.Help

/-- One argument with what there is to say about it. -/
structure Entry where
  form : String
  description : String
  initial : Option String := none

def flagForm (flag : Flag) : String :=
  match flag.letter? with
  | some letter => s!"-{letter}, --{flag.name}"
  | none => s!"    --{flag.name}"

def settingForm (setting : Setting) : String := s!"    {(Argument.setting setting).shown}"

def fileEntry : Entry where
  form := Argument.file.shown
  description := "File with one expression per line"

def flagDescription (detailed : Bool) : Flag → String
  | .quiet => "Do not print diagnostics or log messages"
  | .verbose => "Print debug log messages"
  | .stdin => "Read expressions from stdin, one per line"
  | .samples => "Convert the built-in sample expressions"
  | .strict => "Reject characters that cannot appear in an expression instead of skipping them"
  | .help =>
    if detailed then "Print help (see a summary with '-h')" else "Print help (see more with '--help')"

def flagEntry (detailed : Bool) (flag : Flag) : Entry where
  form := flagForm flag
  description := flagDescription detailed flag

def settingEntry : Setting → Entry
  | .separator =>
    ⟨settingForm .separator, "Text printed between postfix symbols", some "\x22\x22"⟩
  | .maxErrors =>
    ⟨settingForm .maxErrors, "Maximum amount of errors to report per expression", some "4"⟩

def optionEntries (detailed : Bool) : List Entry :=
  [.quiet, .verbose, .stdin, .samples, .strict].map (flagEntry detailed) ++
    [.separator, .maxErrors].map settingEntry ++ [flagEntry detailed .help]

def spaces (count : Nat) : String := String.ofList (List.replicate count ' ')

def summary : String := "Convert infix arithmetic expressions to postfix notation"

def usage : String := "Usage: yard [OPTIONS] [FILE]"

namespace Entry

def initialText (entry : Entry) : Option String :=
  entry.initial.map fun text => s!"[default: {text}]"

/-- The form, filled up to `column`, and the description. -/
def row (column : Nat) (entry : Entry) : String :=
  let text := " ".intercalate (entry.description :: entry.initialText.toList)
  s!"  {entry.form}{spaces (column - entry.form.length)}{text}"

def paragraph (entry : Entry) : List String :=
  let indented := fun text : String => spaces 10 ++ text
  [s!"  {entry.form}", indented entry.description] ++
    (match entry.initialText with
    | some text => [indented "", indented text]
    | none => [])

end Entry

-- Descriptions start two columns behind the longest form.
def table (entries : List Entry) : List String :=
  let column := entries.foldl (fun longest entry => max longest entry.form.length) 0 + 2
  entries.map (Entry.row column)

def brief : List String :=
  [summary, "", usage, "", "Arguments:"] ++ table [fileEntry] ++
    ["", "Options:"] ++ table (optionEntries false)

def detailed : List String :=
  [summary ++ ".", "", "Without an input source, expressions are read interactively.", "", usage, "",
    "Arguments:"] ++ fileEntry.paragraph ++ ["", "Options:"] ++
    [""].intercalate ((optionEntries true).map Entry.paragraph)

def lines (isDetailed : Bool) : List String := if isDetailed then detailed else brief

end Rpn.CommandLine.Help
