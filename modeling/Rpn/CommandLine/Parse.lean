import Rpn.CommandLine.Options
/-!
Reading a command line. Words are taken from the left. A file name or an option whose value is still
to come stays pending until the next argument or the end; only then is it recorded, and only then can
its value or its repetition be wrong. An unknown word is reported before anything that is pending.
Which arguments exclude each other is looked at when all are recorded.
-/
namespace Rpn.CommandLine

/-- What a word looks like, whatever it stands for. -/
inductive Word where
  | plain
  | long (name : List Char) (value : Option (List Char))
  | short (letters : List Char)
  | endOfOptions
deriving DecidableEq, Repr

def Word.ofText : List Char → Word
  | ['-', '-'] => endOfOptions
  | '-' :: '-' :: rest =>
    match rest.dropWhile (· != '=') with
    | [] => long rest none
    | _ :: value => long (rest.takeWhile (· != '=')) (some value)
  | '-' :: c :: rest => short (c :: rest)
  | _ => plain

/-- Why reading stops early. -/
inductive Stop where
  | help (detailed : Bool)
  | usage (error : UsageError)
deriving DecidableEq, Repr

inductive Pending where
  | file (path : String)
  | setting (setting : Setting) (value : Option String)
deriving DecidableEq, Repr

structure State where
  options : Options := {}
  -- in the order in which they were recorded
  given : List Argument := []
  pending : Option Pending := none
  optionsEnded : Bool := false
deriving DecidableEq, Repr

namespace State

def record (state : State) (argument : Argument) (options : Options) : Except Stop State :=
  if argument ∈ state.given then .error (.usage (.repeated argument))
  else .ok { state with options, given := state.given ++ [argument] }

def recordSetting (state : State) (setting : Setting) (value : String) : Except Stop State := do
  let recorded ← state.record (.setting setting) state.options
  match setting with
  | .separator => return { recorded with options := { state.options with separator := value } }
  | .maxErrors =>
    match Count.read value.toList with
    | .ok count => return { recorded with options := { state.options with maxErrors := count } }
    | .error error => throw (.usage (.invalidCount setting value error))

/-- Records what is pending. -/
def settle (state : State) : Except Stop State :=
  let settled := { state with pending := none }
  match state.pending with
  | none => .ok settled
  | some (.file path) => settled.record .file { state.options with file := some path }
  | some (.setting setting none) => .error (.usage (.missingValue setting))
  | some (.setting setting (some value)) => settled.recordSetting setting value

def takeFlag (state : State) (flag : Flag) (detailed : Bool) : Except Stop State := do
  let settled ← state.settle
  match flag with
  | .help => throw (.help detailed)
  | flag => settled.record (.flag flag) (settled.options.raise flag)

def takeLong (state : State) (name : List Char) (value : Option (List Char)) :
    Except Stop State :=
  let value := value.map String.ofList
  match Flag.ofName? (String.ofList name), Setting.ofName? (String.ofList name) with
  | some flag, _ =>
    match value with
    | none => state.takeFlag flag true
    | some value => .error (.usage (.unexpectedValue flag value))
  | none, some setting => do
    let settled ← state.settle
    match value with
    | none => return { settled with pending := some (.setting setting none) }
    | some value => settled.recordSetting setting value
  | none, none => .error (.usage (.unknown ("--" ++ String.ofList name)))

def takeLetters : State → List Char → Except Stop State
  | state, [] => .ok state
  | state, letter :: rest =>
    match Flag.ofLetter? letter with
    | some flag => do takeLetters (← state.takeFlag flag false) rest
    | none => .error (.usage (.unknown (String.ofList ['-', letter])))

def hasFile (state : State) : Bool :=
  state.given.contains .file ||
    match state.pending with
    | some (.file _) => true
    | _ => false

def takeFile (state : State) (text : String) : Except Stop State :=
  if state.hasFile then .error (.usage (.unknown text))
  else do
    let settled ← state.settle
    return { settled with pending := some (.file text) }

def takePlain (state : State) (text : String) : Except Stop State :=
  match state.pending with
  | some (.setting setting none) =>
    .ok { state with pending := some (.setting setting (some text)) }
  | _ => state.takeFile text

def take (state : State) (text : String) : Except Stop State :=
  if state.optionsEnded then state.takeFile text
  else
    match Word.ofText text.toList with
    | .plain => state.takePlain text
    | .long name value => state.takeLong name value
    | .short letters => state.takeLetters letters
    | .endOfOptions => .ok { state with optionsEnded := true }

def takeAll : State → List String → Except Stop State
  | state, [] => state.settle
  | state, text :: rest => do takeAll (← state.take text) rest

end State

/-- The first argument that another one excludes, with all that exclude it. -/
def conflict? (given : List Argument) : Option UsageError :=
  given.findSome? fun argument =>
    match given.filter argument.excludes with
    | [] => none
    | other :: others => some (.conflict argument other others)

def parse (words : List String) : Except Stop Options := do
  let state ← State.takeAll {} words
  match conflict? state.given with
  | some error => throw (.usage error)
  | none => return state.options

end Rpn.CommandLine
