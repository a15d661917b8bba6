/-!
Sets of characters as ascending lists of code point ranges, both ends of a range included.
-/
namespace Rpn.Text

def inRanges (ranges : Array (Nat × Nat)) (c : Char) : Bool :=
  ranges.any fun range => range.1 ≤ c.toNat && c.toNat ≤ range.2

end Rpn.Text
