import Rpn.Span
import Rpn.Text.Width
/-!
Diagnostics: a message, and where it has a place in a line of text, that line with carets under the
place. Carets line up with the characters above them, so both rows are laid out from the same cells,
one for each character of the line.
-/
namespace Rpn

inductive Severity where
  | error | warning
deriving DecidableEq, Repr

def Severity.name : Severity → String
  | error => "error"
  | warning => "warning"

/-- A place in a line, and the name under which the line is known. -/
structure Label where
  name : String
  line : List Char
  span : Span
deriving DecidableEq, Repr

structure Diagnostic where
  severity : Severity := .error
  message : String
  label : Option Label := none
deriving DecidableEq, Repr

namespace Label

def tabStop : Nat := 4

/-- A character of the line, the bytes before it, and the columns it takes. -/
structure Cell where
  char : Char
  offset : Nat
  width : Nat
deriving DecidableEq, Repr

namespace Cell

def shown (cell : Cell) : List Char :=
  if cell.char = '\t' then List.replicate cell.width ' ' else [cell.char]

-- Blanks lead up to the place, and nothing follows it.
def underline (lo hi : Nat) (cell : Cell) : List Char :=
  if cell.offset < hi then
    List.replicate cell.width (if lo < cell.offset + cell.char.utf8Size then '^' else ' ')
  else []

end Cell

def cellsFrom : (offset column : Nat) → List Char → List Cell
  | _, _, [] => []
  | offset, column, c :: rest =>
    let width := Text.columns tabStop column c
    ⟨c, offset, width⟩ :: cellsFrom (offset + c.utf8Size) (column + width) rest

def isEnding (c : Char) : Bool := c == '\n' || c == '\r' || c == '\x00'

/-- The line without the line ends and null characters that it ends in. -/
def visible (label : Label) : List Char :=
  (label.line.reverse.dropWhile isEnding).reverse

def cells (label : Label) : List Cell := cellsFrom 0 0 label.visible

def shown (label : Label) : List Char := label.cells.flatMap Cell.shown

-- An empty place still gets one caret, and a place behind the last character has a column there.
def underline (label : Label) : List Char :=
  let behind : Cell := ⟨'\x00', Text.size label.visible, 1⟩
  (label.cells ++ [behind]).flatMap
    (Cell.underline label.span.lo (max label.span.hi (label.span.lo + 1)))

/-- Columns of a place count the characters before it, from one. -/
def column (label : Label) : Nat :=
  1 + (cellsFrom 0 0 label.line).countP fun cell => cell.offset < label.span.lo

def lines (label : Label) : List String :=
  [s!"  ┌─ {label.name}:1:{label.column}", "  │", s!"1 │ {String.ofList label.shown}",
    s!"  │ {String.ofList label.underline}"]

end Label

namespace Diagnostic

def lines (diagnostic : Diagnostic) : List String :=
  s!"{diagnostic.severity.name}: {diagnostic.message}" ::
    (diagnostic.label.map Label.lines).getD [] ++ [""]

end Diagnostic

end Rpn
