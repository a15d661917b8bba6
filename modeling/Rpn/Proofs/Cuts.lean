import Mathlib.Data.List.TakeWhile
import Rpn.Proofs.Modes
import Rpn.Proofs.Relabel
/-!
Cutting a text in two. Where a text stands changes only the places of what is read in it, and where no
token stands across the cut, both parts are read as in the whole. All that the second part has to be
told about the first one is whether its last token is a number.
-/
namespace Rpn

/-- The same bytes of a text with `count` bytes more in front of it. -/
def Span.shift (count : Nat) (span : Span) : Span where
  lo := span.lo + count
  hi := span.hi + count
  ordered := Nat.add_le_add_right span.ordered count

theorem Span.shift_sized (count lo length : Nat) :
    (Span.sized lo length).shift count = Span.sized (lo + count) length := by
  ext
  · rfl
  · exact Nat.add_right_comm lo length count

section Moving

def Piece.relabel (move : Span → Span) : Piece → Piece
  | .token found => .token (found.relabel move)
  | .invalid c => .invalid (c.relabel move)

theorem tokens_relabel (move : Span → Span) (pieces : List Piece) :
    (pieces.map (Piece.relabel move)).filterMap Piece.token? =
      (pieces.filterMap Piece.token?).map (Spanned.relabel move) := by
  rw [List.filterMap_map, List.map_filterMap]
  congr 1
  funext piece
  cases piece <;> rfl

theorem errors_relabel (move : Span → Span) (mode : Mode) (pieces : List Piece) :
    (pieces.map (Piece.relabel move)).filterMap (Piece.error? mode) =
      (pieces.filterMap (Piece.error? mode)).map (Spanned.relabel move) := by
  rw [List.filterMap_map, List.map_filterMap]
  congr 1
  funext piece
  cases piece <;> cases mode <;> rfl

theorem Cursor.pieces_shift (count : Nat) (text : List Char) (offset : Nat) (afterNumber : Bool) :
    (Cursor.mk text (offset + count) afterNumber).pieces =
      (Cursor.mk text offset afterNumber).pieces.map (Piece.relabel (Span.shift count)) := by
  induction text, offset, afterNumber using Cursor.reading_induction with
  | done offset afterNumber => rw [pieces_end, pieces_end, List.map_nil]
  | blank c rest offset afterNumber blank ih =>
      rw [pieces_blank blank, pieces_blank blank, Nat.add_right_comm, ih]
  | invalid c rest offset afterNumber invalid ih =>
      rw [pieces_invalid invalid, pieces_invalid invalid, Nat.add_right_comm, ih, List.map_cons,
        Piece.relabel, Spanned.relabel, Span.shift_sized]
  | numeral c rest offset afterNumber begins ih =>
      rw [pieces_numeral begins, pieces_numeral begins, Nat.add_right_comm, ih, List.map_cons,
        Piece.relabel, Spanned.relabel, Span.shift_sized]
  | sign c rest offset afterNumber kind single known ih =>
      rw [pieces_single single known, pieces_single single known, Nat.add_right_comm, ih,
        List.map_cons, Piece.relabel, Spanned.relabel, Span.shift_sized]

theorem Cursor.tokens_shift (count : Nat) (text : List Char) (offset : Nat) (afterNumber : Bool) :
    (Cursor.mk text (offset + count) afterNumber).tokens =
      (Cursor.mk text offset afterNumber).tokens.map (Spanned.relabel (Span.shift count)) := by
  rw [tokens, pieces_shift, tokens_relabel, tokens]

end Moving

section Cutting

/-- No token stands on both sides of the place. -/
def Undivided (tokens : List Token) (place : Nat) : Prop :=
  ∀ token ∈ tokens, ¬ (token.span.lo < place ∧ place < token.span.hi)

instance (tokens : List Token) (place : Nat) : Decidable (Undivided tokens place) :=
  inferInstanceAs (Decidable (∀ token ∈ tokens, ¬ (token.span.lo < place ∧ place < token.span.hi)))

/-- Whether the last token is a number, where there is one. -/
def numberLast (afterNumber : Bool) (tokens : List Token) : Bool :=
  match tokens.getLast? with
  | none => afterNumber
  | some last => last.value.isNumber

theorem numberLast_cons (afterNumber : Bool) (token : Token) (tokens : List Token) :
    numberLast afterNumber (token :: tokens) = numberLast token.value.isNumber tokens := by
  rw [numberLast, numberLast, List.getLast?_cons]
  cases tokens.getLast? <;> rfl

namespace Cursor
variable {c : Char} {rest back : List Char} {afterNumber : Bool}

theorem size_numeral (c : Char) (rest : List Char) : Text.size (c :: rest) =
    Text.size (c :: rest.takeWhile Char.isDigit) + Text.size (rest.dropWhile Char.isDigit) := by
  rw [← Text.size_append, List.cons_append, List.takeWhile_append_dropWhile]

theorem beginsNumeral_append (begins : beginsNumeral afterNumber c rest = true) (back : List Char) :
    beginsNumeral afterNumber c (rest ++ back) = true := by
  cases rest with
  | cons d rest => exact begins
  | nil =>
      have digit : c.isDigit = true := by simpa [beginsNumeral, touchesDigit] using begins
      rw [beginsNumeral, digit, Bool.true_or]

theorem digits_append (stops : rest.dropWhile Char.isDigit = [] → touchesDigit back = false) :
    (rest ++ back).takeWhile Char.isDigit = rest.takeWhile Char.isDigit ∧
      (rest ++ back).dropWhile Char.isDigit = rest.dropWhile Char.isDigit ++ back := by
  induction rest with
  | nil => exact digits_split (List.forall_mem_nil _) (stops rfl)
  | cons d rest ih =>
      cases digit : d.isDigit with
      | true => simpa [digit] using ih (by simpa [digit] using stops)
      | false => simp [digit]

-- A digit behind a numeral is part of it.
theorem divided_numeral (begins : beginsNumeral afterNumber c (rest ++ back) = true)
    (all : ∀ d ∈ rest, d.isDigit = true) (touches : touchesDigit back = true) (offset : Nat) :
    ¬ Undivided (Cursor.mk (c :: (rest ++ back)) offset afterNumber).tokens
      (offset + Text.size (c :: rest)) := by
  intro undivided
  rw [tokens_numeral begins, List.takeWhile_append_of_pos all] at undivided
  cases back with
  | nil => contradiction
  | cons d back =>
      have digit : d.isDigit = true := touches
      have size := Text.size_append (c :: rest) (d :: back.takeWhile Char.isDigit)
      have filled := Char.utf8Size_pos c
      have wider := Char.utf8Size_pos d
      rw [List.takeWhile_cons_of_pos digit] at undivided
      apply undivided _ List.mem_cons_self
      simp only [Span.sized, List.cons_append, Text.size] at size ⊢
      omega

/-- Only a digit behind the cut could belong to what is read in front of it. -/
theorem pieces_cut (front back : List Char) (offset : Nat) (afterNumber : Bool)
    (apart : touchesDigit back = true →
      Undivided (Cursor.mk (front ++ back) offset afterNumber).tokens (offset + Text.size front)) :
    (Cursor.mk (front ++ back) offset afterNumber).pieces =
      (Cursor.mk front offset afterNumber).pieces ++
        (Cursor.mk back (offset + Text.size front)
          (numberLast afterNumber (Cursor.mk front offset afterNumber).tokens)).pieces := by
  induction front, offset, afterNumber using Cursor.reading_induction with
  | done offset afterNumber =>
      rw [pieces_end, tokens_end]
      rfl
  | blank c rest offset afterNumber blank ih =>
      have skipped := skipped_of_isBlank blank
      rw [List.cons_append, tokens_skipped skipped, Text.size, ← Nat.add_assoc] at apart
      rw [List.cons_append, pieces_blank blank, pieces_blank blank, tokens_skipped skipped, ih apart,
        Text.size, Nat.add_assoc]
  | invalid c rest offset afterNumber invalid ih =>
      have skipped := (invalid_iff.mp invalid).2
      rw [List.cons_append, tokens_skipped skipped, Text.size, ← Nat.add_assoc] at apart
      rw [List.cons_append, pieces_invalid invalid, pieces_invalid invalid, tokens_skipped skipped,
        ih apart, Text.size, Nat.add_assoc, List.cons_append]
  | numeral c rest offset afterNumber begins ih =>
      have same := beginsNumeral_append begins back
      have stops : rest.dropWhile Char.isDigit = [] → touchesDigit back = false := by
        intro none
        rw [← Bool.not_eq_true]
        intro touches
        exact divided_numeral same (List.dropWhile_eq_nil_iff.mp none) touches offset (apart touches)
      obtain ⟨taken, dropped⟩ := digits_append stops
      rw [List.cons_append, tokens_numeral same, taken, dropped, size_numeral c rest,
        ← Nat.add_assoc] at apart
      have behind := ih fun touches token member => apart touches token (List.mem_cons_of_mem _ member)
      rw [List.cons_append, pieces_numeral same, taken, dropped, behind, pieces_numeral begins,
        tokens_numeral begins, numberLast_cons, size_numeral c rest, Nat.add_assoc, List.cons_append]
      rfl
  | sign c rest offset afterNumber kind single known ih =>
      obtain ⟨_, plain, _, digit, _, size⟩ := ofChar?_eq_some known
      have same : beginsNumeral afterNumber c (rest ++ back) = false := by
        rw [← Bool.not_eq_true]
        intro begins
        cases rest with
        | cons d rest => exact absurd (single.symm.trans begins) Bool.false_ne_true
        | nil =>
            have touches : touchesDigit back = true := by
              simp only [List.nil_append, beginsNumeral, digit, Bool.false_or, Bool.and_eq_true] at begins
              exact begins.2
            exact divided_numeral begins (List.forall_mem_nil _) touches offset (apart touches)
      rw [List.cons_append, tokens_single same known, Text.size, size, ← Nat.add_assoc] at apart
      have behind := ih fun touches token member => apart touches token (List.mem_cons_of_mem _ member)
      rw [List.cons_append, pieces_single same known, behind, pieces_single single known,
        tokens_single single known, numberLast_cons, plain, Text.size, size, Nat.add_assoc,
        List.cons_append]

theorem tokens_cut (front back : List Char) (offset : Nat) (afterNumber : Bool)
    (stops : touchesDigit back = false) :
    (Cursor.mk (front ++ back) offset afterNumber).tokens =
      (Cursor.mk front offset afterNumber).tokens ++
        (Cursor.mk back (offset + Text.size front)
          (numberLast afterNumber (Cursor.mk front offset afterNumber).tokens)).tokens := by
  have apart := pieces_cut front back offset afterNumber fun touches => absurd touches (by simp [stops])
  rw [tokens, apart, List.filterMap_append]
  rfl

end Cursor

end Cutting

section Gaps
variable {gap : List Char}

namespace Cursor

theorem pieces_gap (skipped : ∀ c ∈ gap, Skipped c) (back : List Char) (offset : Nat)
    (afterNumber : Bool) :
    (Cursor.mk (gap ++ back) offset afterNumber).pieces =
      (Cursor.mk gap offset afterNumber).pieces ++
        (Cursor.mk back (offset + Text.size gap) afterNumber).pieces := by
  induction gap generalizing offset with
  | nil =>
      rw [pieces_end]
      rfl
  | cons c gap ih =>
      obtain ⟨here, later⟩ := List.forall_mem_cons.mp skipped
      have tail := ih later (offset + c.utf8Size)
      rw [Nat.add_assoc] at tail
      cases blank : Text.isBlank c with
      | true =>
          rw [List.cons_append, pieces_blank blank, pieces_blank blank]
          exact tail
      | false =>
          have invalid := invalid_iff.mpr ⟨blank, here⟩
          rw [List.cons_append, pieces_invalid invalid, pieces_invalid invalid, List.cons_append]
          exact congrArg _ tail

theorem tokens_of_skipped (skipped : ∀ c ∈ gap, Skipped c) (offset : Nat) (afterNumber : Bool) :
    (Cursor.mk gap offset afterNumber).tokens = [] := by
  induction gap generalizing offset with
  | nil => exact tokens_end offset afterNumber
  | cons c gap ih =>
      obtain ⟨here, later⟩ := List.forall_mem_cons.mp skipped
      rw [tokens_skipped here]
      exact ih later _

theorem tokens_gap (skipped : ∀ c ∈ gap, Skipped c) (back : List Char) (offset : Nat)
    (afterNumber : Bool) : (Cursor.mk (gap ++ back) offset afterNumber).tokens =
      (Cursor.mk back (offset + Text.size gap) afterNumber).tokens := by
  have silent := tokens_of_skipped skipped offset afterNumber
  rw [tokens] at silent
  rw [tokens, pieces_gap skipped, List.filterMap_append, silent, List.nil_append, tokens]

theorem pieces_of_blank (blank : ∀ c ∈ gap, Text.isBlank c = true) (offset : Nat)
    (afterNumber : Bool) : (Cursor.mk gap offset afterNumber).pieces = [] := by
  induction gap generalizing offset with
  | nil => exact pieces_end offset afterNumber
  | cons c gap ih =>
      obtain ⟨here, later⟩ := List.forall_mem_cons.mp blank
      rw [pieces_blank here]
      exact ih later _

theorem touchesDigit_gap (filled : gap ≠ []) (skipped : ∀ c ∈ gap, Skipped c) (back : List Char) :
    touchesDigit (gap ++ back) = false := by
  cases gap with
  | nil => contradiction
  | cons c gap => exact (skipped c List.mem_cons_self).1

end Cursor

end Gaps

end Rpn
