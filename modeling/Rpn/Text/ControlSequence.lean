/-!
Control sequences. Where a text is written without colours, everything that only steers a terminal is
left out: the control characters that are not white space, and the sequences that an escape character
starts. Texts without control characters stay as they are.
-/
namespace Rpn.Text

namespace ControlSequence

/-- What the next character belongs to. The header of a device control string has parameters and
then intermediate characters before its final one, and the string itself follows. -/
inductive Place where
  | text
  | escape
  | escapeIntermediate
  | control
  | command
  | deviceHeader
  | deviceParameter
  | deviceIntermediate
  | string
deriving DecidableEq, Repr

def isControl (c : Char) : Bool := c.toNat < 0x20 || c.toNat == 0x7F

def isSpacing (c : Char) : Bool := c == '\t' || c == '\n' || c == '\x0c' || c == '\r'

def isIntermediate (c : Char) : Bool := 0x20 ≤ c.toNat && c.toNat ≤ 0x2F

def isParameter (c : Char) : Bool := 0x30 ≤ c.toNat && c.toNat ≤ 0x3F

-- Parameters that stand only in front of all others.
def isPrivate (c : Char) : Bool := 0x3C ≤ c.toNat && c.toNat ≤ 0x3F

def isFinal (c : Char) : Bool := 0x40 ≤ c.toNat && c.toNat ≤ 0x7E

-- Strings are read byte by byte, and the byte that ends one may be part of a longer character.
def endsString (c : Char) : Bool := (String.utf8EncodeChar c).contains 0x9C

namespace Place

/-- White space is shown in the middle of a sequence too, and ends it, but not inside a string. -/
def shows : Place → Char → Bool
  | .text, c => !isControl c || isSpacing c
  | .escape, c | .escapeIntermediate, c | .control, c => isSpacing c
  | _, _ => false

def behindEscape (c : Char) : Place :=
  if c = '[' then .control
  else if c = ']' then .command
  else if c = 'P' then .deviceHeader
  else if c = 'X' ∨ c = '^' ∨ c = '_' then .string
  else if isIntermediate c then .escapeIntermediate
  else if isParameter c || isFinal c then .text
  else .escape

-- The place behind a character that is not shown.
def next (place : Place) (c : Char) : Place :=
  if c = '\x1b' then .escape
  else if c = '\x18' ∨ c = '\x1a' then .text
  else
    match place with
    | .text => .text
    | .escape => behindEscape c
    | .escapeIntermediate => if isParameter c || isFinal c then .text else .escapeIntermediate
    | .control => if isFinal c then .text else .control
    | .command => if c = '\x07' then .text else .command
    | .deviceHeader =>
      if isIntermediate c then .deviceIntermediate
      else if isParameter c then .deviceParameter
      else if isFinal c then .string
      else .deviceHeader
    | .deviceParameter =>
      if isIntermediate c then .deviceIntermediate
      else if isPrivate c || isFinal c then .string
      else .deviceParameter
    | .deviceIntermediate => if isParameter c || isFinal c then .string else .deviceIntermediate
    | .string => if endsString c then .text else .string

end Place

def removeFrom : Place → List Char → List Char
  | _, [] => []
  | place, c :: rest =>
    if place.shows c then c :: removeFrom .text rest else removeFrom (place.next c) rest

end ControlSequence

def withoutControls (text : List Char) : List Char := ControlSequence.removeFrom .text text

end Rpn.Text
