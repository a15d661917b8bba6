/-!
Reading sources. What can go wrong has a cause, and a text is what the bytes of a source encode.
-/
namespace Rpn

/-- Why a file, the standard input or the terminal cannot be read. -/
inductive ReadError where
  | notFound
  | noTerminal
  | notDirectory
  | isDirectory
  | nameTooLong
  | notText
  | other (reason : String)
deriving DecidableEq, Repr

def ReadError.reason : ReadError → String
  | notFound => "No such file or directory (os error 2)"
  | noTerminal => "No such device or address (os error 6)"
  | notDirectory => "Not a directory (os error 20)"
  | isDirectory => "Is a directory (os error 21)"
  | nameTooLong => "File name too long (os error 36)"
  | notText => "stream did not contain valid UTF-8"
  | other reason => reason

def decode (bytes : ByteArray) : Except ReadError (List Char) :=
  match String.fromUTF8? bytes with
  | some text => .ok text.toList
  | none => .error .notText

-- Bytes stand for a source that can be read.
instance : Coe ByteArray (Except ReadError ByteArray) := ⟨.ok⟩

/-- What a run can read. The terminal, if there is one, gives the lines typed at it. -/
structure Environment where
  stdin : Except ReadError ByteArray := .ok .empty
  file : String → Except ReadError ByteArray := fun _ => .error .notFound
  terminal : Option (List String) := none

end Rpn
