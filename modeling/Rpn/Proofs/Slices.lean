import Rpn.Span
import Rpn.Text.Blank
/-!
Places in a text. A count of bytes that falls between two characters splits the text in one way, so a
span that slices a text stands for the characters between its bounds.
-/
namespace Rpn

namespace Text

/-- The character `c` stands `offset` bytes behind the start of the text. -/
def CharAt (text : List Char) (offset : Nat) (c : Char) : Prop :=
  ∃ front back, text = front ++ c :: back ∧ size front = offset

theorem size_eq_zero {text : List Char} (empty : size text = 0) : text = [] := by
  cases text with
  | nil => rfl
  | cons c rest =>
      have := Char.utf8Size_pos c
      simp only [size] at empty
      omega

theorem size_pos {text : List Char} (filled : text ≠ []) : 0 < size text :=
  Nat.pos_of_ne_zero fun empty => filled (size_eq_zero empty)

-- Of two ways to cut a text the one behind more bytes is behind more characters.
theorem split_of_size_le {front back front' back' : List Char}
    (same : front ++ back = front' ++ back') (le : size front ≤ size front') :
    ∃ middle, front' = front ++ middle ∧ back = middle ++ back' := by
  rcases List.append_eq_append_iff.mp same with ⟨middle, first, second⟩ | ⟨middle, first, second⟩
  · exact ⟨middle, first, second⟩
  · rw [first, size_append] at le
    obtain rfl : middle = [] := size_eq_zero (by omega)
    exact ⟨[], by simpa using first.symm, by simpa using second.symm⟩

theorem split_of_size_eq {front back front' back' : List Char}
    (same : front ++ back = front' ++ back') (size : size front = size front') :
    front = front' ∧ back = back' := by
  obtain ⟨middle, first, second⟩ := split_of_size_le same (Nat.le_of_eq size)
  rw [first, size_append] at size
  obtain rfl : middle = [] := size_eq_zero (by omega)
  exact ⟨by simpa using first.symm, by simpa using second⟩

theorem size_cons (c : Char) (rest : List Char) :
    ∃ count, size (c :: rest) = count + 1 ∧ c.utf8Size ≤ count + 1 ∧
      count + 1 - c.utf8Size = size rest := by
  have filled := Char.utf8Size_pos c
  refine ⟨c.utf8Size - 1 + size rest, ?_, ?_, ?_⟩
  · simp only [size]
    omega
  · omega
  · omega

theorem dropBytes?_append (front back : List Char) :
    dropBytes? (size front) (front ++ back) = some back := by
  induction front with
  | nil => simp [size, dropBytes?]
  | cons c front ih =>
      obtain ⟨count, total, fits, left⟩ := size_cons c front
      rw [total, List.cons_append, dropBytes?, if_pos fits, left]
      exact ih

theorem takeBytes?_append (front back : List Char) :
    takeBytes? (size front) (front ++ back) = some front := by
  induction front with
  | nil => simp [size, takeBytes?]
  | cons c front ih =>
      obtain ⟨count, total, fits, left⟩ := size_cons c front
      rw [total, List.cons_append, takeBytes?, if_pos fits, left, ih]
      rfl

theorem dropBytes?_eq_some {count : Nat} {text back : List Char}
    (dropped : dropBytes? count text = some back) :
    ∃ front, text = front ++ back ∧ size front = count := by
  induction text generalizing count with
  | nil =>
      cases count with
      | zero => exact ⟨[], by simpa [dropBytes?] using dropped, rfl⟩
      | succ count => simp [dropBytes?] at dropped
  | cons c rest ih =>
      cases count with
      | zero => exact ⟨[], by simpa [dropBytes?] using dropped, rfl⟩
      | succ count =>
          rw [dropBytes?] at dropped
          split at dropped
          · obtain ⟨front, same, size⟩ := ih dropped
            exact ⟨c :: front, by simp [same], by simp only [Text.size]; omega⟩
          · contradiction

theorem takeBytes?_eq_some {count : Nat} {text front : List Char}
    (taken : takeBytes? count text = some front) :
    ∃ back, text = front ++ back ∧ size front = count := by
  induction text generalizing count front with
  | nil =>
      cases count with
      | zero =>
          obtain rfl : [] = front := by simpa [takeBytes?] using taken
          exact ⟨[], rfl, rfl⟩
      | succ count => simp [takeBytes?] at taken
  | cons c rest ih =>
      cases count with
      | zero =>
          obtain rfl : [] = front := by simpa [takeBytes?] using taken
          exact ⟨c :: rest, rfl, rfl⟩
      | succ count =>
          rw [takeBytes?] at taken
          split at taken
          · obtain ⟨tail, shorter, rfl⟩ := Option.map_eq_some_iff.mp taken
            obtain ⟨back, same, size⟩ := ih shorter
            exact ⟨back, by simp [same], by simp only [Text.size]; omega⟩
          · contradiction

theorem charAt_unique {text : List Char} {offset : Nat} {c d : Char} (first : CharAt text offset c)
    (second : CharAt text offset d) : c = d := by
  obtain ⟨front, back, whole, before⟩ := first
  obtain ⟨front', back', same, before'⟩ := second
  rw [whole] at same
  obtain ⟨_, tail⟩ := split_of_size_eq same (before.trans before'.symm)
  exact (List.cons.inj tail).1

theorem size_of_narrow {text : List Char} (narrow : ∀ c ∈ text, c.utf8Size = 1) :
    size text = text.length := by
  induction text with
  | nil => rfl
  | cons c rest ih =>
      have tail := ih fun d member => narrow d (List.mem_cons_of_mem _ member)
      rw [size, tail, narrow c List.mem_cons_self, List.length_cons, Nat.add_comm]

end Text

theorem Span.slice?_eq_some_iff {span : Span} {text lexeme : List Char} :
    span.slice? text = some lexeme ↔ ∃ front back, text = front ++ lexeme ++ back ∧
      Text.size front = span.lo ∧ Text.size lexeme = span.length := by
  rw [Span.slice?, Option.bind_eq_some_iff]
  constructor
  · rintro ⟨later, dropped, taken⟩
    obtain ⟨front, same, before⟩ := Text.dropBytes?_eq_some dropped
    obtain ⟨back, rfl, inside⟩ := Text.takeBytes?_eq_some taken
    exact ⟨front, back, by simpa using same, before, inside⟩
  · rintro ⟨front, back, rfl, before, inside⟩
    rw [← before, ← inside, List.append_assoc]
    exact ⟨lexeme ++ back, Text.dropBytes?_append _ _, Text.takeBytes?_append _ _⟩

theorem Text.slice_whole (text : List Char) : (whole text).slice? text = some text := by
  refine Span.slice?_eq_some_iff.mpr ⟨[], [], by simp, rfl, ?_⟩
  simp [whole, Span.sized, Span.length]

section Cuts
variable {text lexeme : List Char} {span : Span}

-- Every byte of a lexeme without wide characters is the first one of a character.
theorem charAt_of_slice (sliced : span.slice? text = some lexeme)
    (narrow : ∀ c ∈ lexeme, c.utf8Size = 1) {place : Nat} (low : span.lo ≤ place)
    (high : place < span.hi) :
    ∃ c ∈ lexeme, Text.CharAt text place c := by
  obtain ⟨front, back, whole, before, inside⟩ := Span.slice?_eq_some_iff.mp sliced
  have size := Text.size_of_narrow narrow
  have bound : place - span.lo < lexeme.length := by
    rw [Span.length] at inside
    omega
  refine ⟨lexeme[place - span.lo], List.getElem_mem bound, ?_⟩
  refine ⟨front ++ lexeme.take (place - span.lo), lexeme.drop (place - span.lo + 1) ++ back, ?_, ?_⟩
  · rw [whole, List.append_assoc, List.append_assoc, ← List.cons_append,
      ← List.drop_eq_getElem_cons bound, ← List.append_assoc (List.take _ _),
      List.take_append_drop]
  · have taken : Text.size (lexeme.take (place - span.lo)) = place - span.lo := by
      rw [Text.size_of_narrow fun c member => narrow c (List.mem_of_mem_take member), List.length_take]
      omega
    rw [Text.size_append, taken, before]
    omega

-- A span whose bounds are those of two spans that cut the text cuts it as well.
theorem slice_between {first last : Span} {head tail : List Char}
    (starts : first.slice? text = some head) (ends : last.slice? text = some tail)
    (lo : first.lo = span.lo) (hi : last.hi = span.hi) :
    ∃ lexeme, span.slice? text = some lexeme := by
  obtain ⟨front, back, whole, before, _⟩ := Span.slice?_eq_some_iff.mp starts
  obtain ⟨front', back', whole', before', inside⟩ := Span.slice?_eq_some_iff.mp ends
  have ordered := span.ordered
  have close : Text.size (front' ++ tail) = span.hi := by
    have := last.ordered
    rw [Text.size_append, before', inside, Span.length]
    omega
  have same : front ++ (head ++ back) = (front' ++ tail) ++ back' := by
    rw [← List.append_assoc, ← whole, whole']
  obtain ⟨middle, split, _⟩ := Text.split_of_size_le same (by omega)
  refine ⟨middle, Span.slice?_eq_some_iff.mpr ⟨front, back', by rw [whole', split], by omega, ?_⟩⟩
  rw [split, Text.size_append] at close
  rw [Span.length]
  omega

end Cuts

end Rpn
