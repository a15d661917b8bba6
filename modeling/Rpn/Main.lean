import Rpn.Program
/-!
The command line program. Only the source that the options name is read. At a terminal without a
source, lines are answered as they are entered, up to the end of the input.
-/
namespace Rpn.Terminal

def readError : IO.Error → ReadError
  | .noFileOrDirectory .. => .notFound
  | .inappropriateType _ code _ => if code = 21 then .isDirectory else .notDirectory
  | error => .other error.toString

def readBytes (action : IO ByteArray) : IO (Except ReadError ByteArray) := do
  match ← action.toBaseIO with
  | .ok bytes => return .ok bytes
  | .error error => return .error (readError error)

partial def readToEnd (stream : IO.FS.Stream) (bytes : ByteArray) : IO ByteArray := do
  let more ← stream.read 65536
  if more.isEmpty then return bytes else readToEnd stream (bytes ++ more)

/-- What a run with these options can read, the terminal left out. -/
def environment (options : Options) : IO Environment := do
  match options.source with
  | .stdin => return { stdin := ← readBytes (readToEnd (← IO.getStdin) .empty) }
  | .file path =>
    let bytes ← readBytes (IO.FS.readBinFile path)
    return { file := fun _ => bytes }
  | .samples | .prompt => return {}

def deliver (outcome : Outcome) : IO UInt32 := do
  IO.eprint outcome.errors
  IO.print outcome.output
  return outcome.code.toUInt32

partial def converse (options : Options) (stdin : IO.FS.Stream) : IO UInt32 := do
  IO.eprint "yard> "
  let line ← stdin.getLine
  if line.isEmpty then return 0
  let _ ← deliver (Program.write { events := Session.answer options.settings line.toList })
  converse options stdin

end Rpn.Terminal

open Rpn in
def main (arguments : List String) : IO UInt32 := do
  match CommandLine.parse arguments with
  | .error reason => Terminal.deliver (Program.stop reason)
  | .ok options =>
    let stdin ← IO.getStdin
    if options.source = .prompt ∧ (← stdin.isTty) then Terminal.converse options stdin
    else Terminal.deliver (Program.run arguments (← Terminal.environment options))
