import Rpn.Text.Bytes
/-!
Byte ranges of a text. The bounds of a span are in order by construction, so its length is their
difference and a join only widens it.
-/
namespace Rpn

/-- The bytes from `lo` up to, not including, `hi`. -/
@[ext] structure Span where
  lo : Nat
  hi : Nat
  ordered : lo ≤ hi := by omega
deriving DecidableEq, Repr

namespace Span

instance : Inhabited Span := ⟨{ lo := 0, hi := 0 }⟩

-- The two bounds may come in either order.
def ofBounds (a b : Nat) : Span := { lo := min a b, hi := max a b }

def sized (lo length : Nat) : Span := { lo, hi := lo + length }

def length (span : Span) : Nat := span.hi - span.lo

def isEmpty (span : Span) : Bool := span.lo == span.hi

/-- The least span that covers both. -/
def join (a b : Span) : Span where
  lo := min a.lo b.lo
  hi := max a.hi b.hi
  ordered := by have := a.ordered; omega

/-- The characters between the bounds, where both bounds fall between characters. -/
def slice? (span : Span) (text : List Char) : Option (List Char) :=
  (Text.dropBytes? span.lo text).bind (Text.takeBytes? span.length)

-- The form in which log messages show a span.
def describe (span : Span) : String := s!"Span \x7b lo: {span.lo}, hi: {span.hi} \x7d"

end Span

/-- A value and the place in the text that it was read from. -/
structure Spanned (α : Type) where
  value : α
  span : Span
deriving DecidableEq, Repr

namespace Spanned
variable {α β : Type}

def map (f : α → β) (item : Spanned α) : Spanned β := ⟨f item.value, item.span⟩

end Spanned

/-- The span of a whole text. -/
def Text.whole (text : List Char) : Span := .sized 0 (Text.size text)

end Rpn
