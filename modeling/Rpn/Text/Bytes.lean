/-!
Texts are lists of characters, and places in them are counted in the bytes of their encoding. A cut
at a byte count exists only where that count falls between two characters.
-/
namespace Rpn.Text

def size : List Char → Nat
  | [] => 0
  | c :: rest => c.utf8Size + size rest

@[simp] theorem size_append (front back : List Char) : size (front ++ back) = size front + size back := by
  induction front with
  | nil => simp [size]
  | cons c rest ih => simp [size, ih, Nat.add_assoc]

-- What is left of a text after its first `count` bytes.
def dropBytes? : Nat → List Char → Option (List Char)
  | 0, text => some text
  | _ + 1, [] => none
  | count + 1, c :: rest =>
    if c.utf8Size ≤ count + 1 then dropBytes? (count + 1 - c.utf8Size) rest else none

-- The first `count` bytes of a text.
def takeBytes? : Nat → List Char → Option (List Char)
  | 0, _ => some []
  | _ + 1, [] => none
  | count + 1, c :: rest =>
    if c.utf8Size ≤ count + 1 then (takeBytes? (count + 1 - c.utf8Size) rest).map (c :: ·) else none

end Rpn.Text
