import Rpn.Text.Blank
import Rpn.Token
/-!
Reading tokens from a text. A cursor walks over the text and takes one piece after another, passing
over blanks. A numeral is a run of digits, and a minus belongs to it where the minus touches the first
digit and the token before is no number; any other piece is a single character. The pieces depend on
the text alone. The mode decides only whether a character that is no token is reported. `next?` is what
`next_token` answers, and `tokenize` collects the answers.
-/
namespace Rpn

inductive Mode where
  | tolerant | strict
deriving DecidableEq, Repr

inductive ScanError where
  | invalidChar (c : Char)
deriving DecidableEq, Repr

def ScanError.message : ScanError → String
  | invalidChar c => s!"invalid character '{c}'"

inductive Piece where
  | token (token : Token)
  | invalid (c : Spanned Char)
deriving DecidableEq, Repr

namespace Piece

def token? : Piece → Option Token
  | .token found => some found
  | .invalid _ => none

def error? (mode : Mode) : Piece → Option (Spanned ScanError)
  | .token _ => none
  | .invalid c =>
    match mode with
    | .strict => some (c.map .invalidChar)
    | .tolerant => none

end Piece

/-- A place in a text: what is left to read, the bytes read so far, and whether the last token was a
number. A character that is no token leaves the last of these as it was. -/
structure Cursor where
  rest : List Char
  offset : Nat := 0
  afterNumber : Bool := false
deriving DecidableEq, Repr

namespace Cursor

def ofText (text : List Char) : Cursor := { rest := text }

def skipBlank (cursor : Cursor) : Cursor :=
  { cursor with
    rest := cursor.rest.dropWhile Text.isBlank
    offset := cursor.offset + Text.size (cursor.rest.takeWhile Text.isBlank) }

def touchesDigit : List Char → Bool
  | c :: _ => c.isDigit
  | [] => false

def beginsNumeral (afterNumber : Bool) (c : Char) (rest : List Char) : Bool :=
  c.isDigit || (c == '-' && !afterNumber && touchesDigit rest)

-- The piece that starts with `c`, and the cursor behind it.
def readFrom (cursor : Cursor) (c : Char) (rest : List Char) : Piece × Cursor :=
  if beginsNumeral cursor.afterNumber c rest then
    let lexeme := c :: rest.takeWhile Char.isDigit
    (.token ⟨.number lexeme, .sized cursor.offset (Text.size lexeme)⟩,
      ⟨rest.dropWhile Char.isDigit, cursor.offset + Text.size lexeme, true⟩)
  else
    let place := Span.sized cursor.offset c.utf8Size
    match Kind.ofChar? c with
    | some kind => (.token ⟨kind, place⟩, ⟨rest, place.hi, false⟩)
    | none => (.invalid ⟨c, place⟩, ⟨rest, place.hi, cursor.afterNumber⟩)

def read? (cursor : Cursor) : Option (Piece × Cursor) :=
  match cursor.skipBlank.rest with
  | [] => none
  | c :: rest => some (cursor.skipBlank.readFrom c rest)

theorem readFrom_rest_le (cursor : Cursor) (c : Char) (rest : List Char) :
    (cursor.readFrom c rest).2.rest.length ≤ rest.length := by
  unfold readFrom
  split
  · exact (List.dropWhile_sublist _).length_le
  · dsimp only
    split <;> exact Nat.le_refl _

-- Every piece takes at least one character.
theorem read?_shortens {cursor next : Cursor} {piece : Piece}
    (taken : cursor.read? = some (piece, next)) : next.rest.length < cursor.rest.length := by
  unfold read? at taken
  split at taken
  · contradiction
  · rename_i c rest left
    have skipped : cursor.skipBlank.rest.length ≤ cursor.rest.length :=
      (List.dropWhile_sublist _).length_le
    have read := readFrom_rest_le cursor.skipBlank c rest
    rw [Option.some.inj taken] at read
    simp only [left, List.length_cons] at skipped read
    omega

/-- Everything from here on, whatever the mode. -/
def pieces (cursor : Cursor) : List Piece :=
  match _taken : cursor.read? with
  | none => []
  | some (piece, next) => piece :: next.pieces
termination_by cursor.rest.length
decreasing_by exact read?_shortens ‹_›

/-- The next token or error, and the cursor behind it; `none` at the end of the text. -/
def next? (mode : Mode) (cursor : Cursor) :
    Option (Except (Spanned ScanError) Token × Cursor) :=
  match _taken : cursor.read? with
  | none => none
  | some (piece, next) =>
    match piece.token?, piece.error? mode with
    | some token, _ => some (.ok token, next)
    | none, some error => some (.error error, next)
    | none, none => next.next? mode
termination_by cursor.rest.length
decreasing_by exact read?_shortens ‹_›

/-- All tokens from here on, or all errors where there are any. -/
def tokenize (mode : Mode) (cursor : Cursor) : Except (List (Spanned ScanError)) (List Token) :=
  match cursor.pieces.filterMap (Piece.error? mode) with
  | [] => .ok (cursor.pieces.filterMap Piece.token?)
  | errors => .error errors

end Cursor

def scan (mode : Mode) (text : List Char) : Except (List (Spanned ScanError)) (List Token) :=
  (Cursor.ofText text).tokenize mode

end Rpn
