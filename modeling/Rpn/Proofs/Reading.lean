import Rpn.Cursor
/-!
Reading one character at a time. What a cursor reads from here on is settled by its first character:
a character that is no part of a token is passed over, and any other one starts the next token.
-/
namespace Rpn

/-- The character is no part of any token. -/
def Skipped (c : Char) : Prop := c.isDigit = false ∧ Kind.ofChar? c = none

theorem ofChar?_eq_some {c : Char} {kind : Kind} (known : Kind.ofChar? c = some kind) :
    kind.lexeme = [c] ∧ kind.isNumber = false ∧ kind ≠ .operator .negate ∧ c.isDigit = false ∧
      Text.isBlank c = false ∧ c.utf8Size = 1 := by
  unfold Kind.ofChar? at known
  split at known
  all_goals simp only [Option.some.injEq, reduceCtorEq] at known
  all_goals
    subst known
    decide

theorem skipped_of_isBlank {c : Char} (blank : Text.isBlank c = true) : Skipped c := by
  constructor
  · cases digit : c.isDigit with
    | false => rfl
    | true =>
        simp only [Char.isDigit, Bool.and_eq_true, decide_eq_true_eq, ge_iff_le,
          UInt32.le_iff_toNat_le] at digit
        simp only [Text.isBlank, Bool.or_eq_true, Bool.and_eq_true, decide_eq_true_eq, beq_iff_eq,
          Char.toNat] at blank
        have low : 48 ≤ c.val.toNat := digit.1
        have high : c.val.toNat ≤ 57 := digit.2
        omega
  · cases known : Kind.ofChar? c with
    | none => rfl
    | some kind =>
        have plain := (ofChar?_eq_some known).2.2.2.2.1
        rw [blank] at plain
        contradiction

/-- The character is no blank, no digit and none of the signs. -/
def Invalid (c : Char) : Prop :=
  Text.isBlank c = false ∧ c.isDigit = false ∧ c ∉ ['+', '-', '*', '/', '^', '(', ')']

instance : DecidablePred Invalid := fun _ => inferInstanceAs (Decidable (_ ∧ _ ∧ _))

theorem ofChar?_eq_none_iff {c : Char} :
    Kind.ofChar? c = none ↔ c ∉ ['+', '-', '*', '/', '^', '(', ')'] := by
  constructor
  · intro unknown member
    simp only [List.mem_cons, List.not_mem_nil, or_false] at member
    rcases member with rfl | rfl | rfl | rfl | rfl | rfl | rfl <;> contradiction
  · intro foreign
    cases known : Kind.ofChar? c with
    | none => rfl
    | some kind =>
        unfold Kind.ofChar? at known
        split at known <;> simp_all

theorem invalid_iff {c : Char} : Invalid c ↔ Text.isBlank c = false ∧ Skipped c := by
  rw [Invalid, Skipped, ofChar?_eq_none_iff]

namespace Cursor

theorem pieces_eq (cursor : Cursor) : cursor.pieces =
    match cursor.read? with
    | none => []
    | some (piece, next) => piece :: next.pieces := by
  rw [pieces]
  split <;> rename_i taken <;> simp [taken]

theorem pieces_end (offset : Nat) (afterNumber : Bool) :
    (Cursor.mk [] offset afterNumber).pieces = [] := by
  rw [pieces_eq]
  rfl

theorem read?_blank {c : Char} (blank : Text.isBlank c = true) (rest : List Char) (offset : Nat)
    (afterNumber : Bool) :
    (Cursor.mk (c :: rest) offset afterNumber).read? =
      (Cursor.mk rest (offset + c.utf8Size) afterNumber).read? := by
  have skip : (Cursor.mk (c :: rest) offset afterNumber).skipBlank =
      (Cursor.mk rest (offset + c.utf8Size) afterNumber).skipBlank := by
    simp [skipBlank, blank, Text.size, Nat.add_assoc]
  rw [read?, read?, skip]

theorem read?_filled {c : Char} (filled : Text.isBlank c = false) (rest : List Char) (offset : Nat)
    (afterNumber : Bool) :
    (Cursor.mk (c :: rest) offset afterNumber).read? =
      some ((Cursor.mk (c :: rest) offset afterNumber).readFrom c rest) := by
  have skip : (Cursor.mk (c :: rest) offset afterNumber).skipBlank =
      Cursor.mk (c :: rest) offset afterNumber := by
    simp [skipBlank, filled, Text.size]
  rw [read?, skip]

theorem pieces_blank {c : Char} (blank : Text.isBlank c = true) (rest : List Char) (offset : Nat)
    (afterNumber : Bool) :
    (Cursor.mk (c :: rest) offset afterNumber).pieces =
      (Cursor.mk rest (offset + c.utf8Size) afterNumber).pieces := by
  rw [pieces_eq, read?_blank blank, ← pieces_eq]

theorem pieces_filled {c : Char} (filled : Text.isBlank c = false) (rest : List Char) (offset : Nat)
    (afterNumber : Bool) :
    (Cursor.mk (c :: rest) offset afterNumber).pieces =
      ((Cursor.mk (c :: rest) offset afterNumber).readFrom c rest).1 ::
        ((Cursor.mk (c :: rest) offset afterNumber).readFrom c rest).2.pieces := by
  rw [pieces_eq, read?_filled filled]

def tokens (cursor : Cursor) : List Token := cursor.pieces.filterMap Piece.token?

theorem tokens_end (offset : Nat) (afterNumber : Bool) :
    (Cursor.mk [] offset afterNumber).tokens = [] := by
  rw [tokens, pieces_end]
  rfl

theorem beginsNumeral_of_skipped {c : Char} (skipped : Skipped c) (afterNumber : Bool)
    (rest : List Char) : beginsNumeral afterNumber c rest = false := by
  have minus : c ≠ '-' := by
    rintro rfl
    exact absurd skipped.2 (by decide)
  simp [beginsNumeral, skipped.1, minus]

theorem pieces_invalid {c : Char} (invalid : Invalid c) (rest : List Char) (offset : Nat)
    (afterNumber : Bool) :
    (Cursor.mk (c :: rest) offset afterNumber).pieces =
      .invalid ⟨c, .sized offset c.utf8Size⟩ ::
        (Cursor.mk rest (offset + c.utf8Size) afterNumber).pieces := by
  obtain ⟨filled, skipped⟩ := invalid_iff.mp invalid
  rw [pieces_filled filled]
  simp [readFrom, beginsNumeral_of_skipped skipped, skipped.2, Span.sized]

theorem tokens_skipped {c : Char} (skipped : Skipped c) (rest : List Char) (offset : Nat)
    (afterNumber : Bool) :
    (Cursor.mk (c :: rest) offset afterNumber).tokens =
      (Cursor.mk rest (offset + c.utf8Size) afterNumber).tokens := by
  cases blank : Text.isBlank c with
  | true => rw [tokens, pieces_blank blank, tokens]
  | false =>
      rw [tokens, pieces_invalid (invalid_iff.mpr ⟨blank, skipped⟩), List.filterMap_cons_none rfl,
        tokens]

theorem isBlank_of_beginsNumeral {c : Char} {rest : List Char} {afterNumber : Bool}
    (begins : beginsNumeral afterNumber c rest = true) : Text.isBlank c = false := by
  cases blank : Text.isBlank c with
  | false => rfl
  | true =>
      rw [beginsNumeral_of_skipped (skipped_of_isBlank blank)] at begins
      contradiction

theorem pieces_numeral {c : Char} {rest : List Char} {afterNumber : Bool}
    (begins : beginsNumeral afterNumber c rest = true) (offset : Nat) :
    (Cursor.mk (c :: rest) offset afterNumber).pieces =
      .token ⟨.number (c :: rest.takeWhile Char.isDigit),
        .sized offset (Text.size (c :: rest.takeWhile Char.isDigit))⟩ ::
      (Cursor.mk (rest.dropWhile Char.isDigit)
        (offset + Text.size (c :: rest.takeWhile Char.isDigit)) true).pieces := by
  rw [pieces_filled (isBlank_of_beginsNumeral begins)]
  simp [readFrom, begins]

theorem tokens_numeral {c : Char} {rest : List Char} {afterNumber : Bool}
    (begins : beginsNumeral afterNumber c rest = true) (offset : Nat) :
    (Cursor.mk (c :: rest) offset afterNumber).tokens =
      ⟨.number (c :: rest.takeWhile Char.isDigit),
        .sized offset (Text.size (c :: rest.takeWhile Char.isDigit))⟩ ::
      (Cursor.mk (rest.dropWhile Char.isDigit)
        (offset + Text.size (c :: rest.takeWhile Char.isDigit)) true).tokens := by
  rw [tokens, pieces_numeral begins]
  rfl

theorem pieces_single {c : Char} {rest : List Char} {afterNumber : Bool} {kind : Kind}
    (single : beginsNumeral afterNumber c rest = false) (known : Kind.ofChar? c = some kind)
    (offset : Nat) :
    (Cursor.mk (c :: rest) offset afterNumber).pieces =
      .token ⟨kind, .sized offset 1⟩ :: (Cursor.mk rest (offset + 1) false).pieces := by
  obtain ⟨_, _, _, _, blank, size⟩ := ofChar?_eq_some known
  rw [pieces_filled blank]
  simp [readFrom, single, known, size, Span.sized]

theorem tokens_single {c : Char} {rest : List Char} {afterNumber : Bool} {kind : Kind}
    (single : beginsNumeral afterNumber c rest = false) (known : Kind.ofChar? c = some kind)
    (offset : Nat) :
    (Cursor.mk (c :: rest) offset afterNumber).tokens =
      ⟨kind, .sized offset 1⟩ :: (Cursor.mk rest (offset + 1) false).tokens := by
  rw [tokens, pieces_single single known]
  rfl

/-- What holds at the end of a text and is carried back over a blank, an invalid character, a numeral
and a sign holds of every text, wherever it stands. -/
theorem reading_induction {motive : List Char → Nat → Bool → Prop}
    (done : ∀ offset afterNumber, motive [] offset afterNumber)
    (blank : ∀ c rest offset afterNumber, Text.isBlank c = true →
      motive rest (offset + c.utf8Size) afterNumber → motive (c :: rest) offset afterNumber)
    (invalid : ∀ c rest offset afterNumber, Invalid c →
      motive rest (offset + c.utf8Size) afterNumber → motive (c :: rest) offset afterNumber)
    (numeral : ∀ c rest offset afterNumber, beginsNumeral afterNumber c rest = true →
      motive (rest.dropWhile Char.isDigit)
        (offset + Text.size (c :: rest.takeWhile Char.isDigit)) true →
      motive (c :: rest) offset afterNumber)
    (sign : ∀ c rest offset afterNumber kind, beginsNumeral afterNumber c rest = false →
      Kind.ofChar? c = some kind → motive rest (offset + 1) false →
      motive (c :: rest) offset afterNumber)
    (text : List Char) (offset : Nat) (afterNumber : Bool) : motive text offset afterNumber := by
  induction length : text.length using Nat.strongRecOn generalizing text offset afterNumber with
  | ind count ih =>
      subst length
      cases text with
      | nil => exact done offset afterNumber
      | cons c rest =>
          have behind : ∀ offset afterNumber, motive rest offset afterNumber :=
            fun offset afterNumber => ih rest.length (Nat.lt_succ_self _) rest offset afterNumber rfl
          cases filled : Text.isBlank c with
          | true => exact blank c rest offset afterNumber filled (behind _ _)
          | false =>
              cases begins : beginsNumeral afterNumber c rest with
              | true =>
                  have shorter := (List.dropWhile_sublist (p := Char.isDigit) (l := rest)).length_le
                  exact numeral c rest offset afterNumber begins
                    (ih _ (Nat.lt_succ_of_le shorter) _ _ _ rfl)
              | false =>
                  cases known : Kind.ofChar? c with
                  | some kind => exact sign c rest offset afterNumber kind begins known (behind _ _)
                  | none =>
                      have plain : c.isDigit = false := by
                        simp only [beginsNumeral, Bool.or_eq_false_iff] at begins
                        exact begins.1
                      exact invalid c rest offset afterNumber
                        (invalid_iff.mpr ⟨filled, plain, known⟩) (behind _ _)

/-- For the tokens alone a blank and an invalid character are one case. -/
theorem tokens_induction {motive : List Char → Nat → Bool → Prop}
    (done : ∀ offset afterNumber, motive [] offset afterNumber)
    (skipped : ∀ c rest offset afterNumber, Skipped c →
      motive rest (offset + c.utf8Size) afterNumber → motive (c :: rest) offset afterNumber)
    (numeral : ∀ c rest offset afterNumber, beginsNumeral afterNumber c rest = true →
      motive (rest.dropWhile Char.isDigit)
        (offset + Text.size (c :: rest.takeWhile Char.isDigit)) true →
      motive (c :: rest) offset afterNumber)
    (sign : ∀ c rest offset afterNumber kind, beginsNumeral afterNumber c rest = false →
      Kind.ofChar? c = some kind → motive rest (offset + 1) false →
      motive (c :: rest) offset afterNumber)
    (text : List Char) (offset : Nat) (afterNumber : Bool) : motive text offset afterNumber := by
  apply reading_induction done _ _ numeral sign
  · intro c rest offset afterNumber blank
    exact skipped c rest offset afterNumber (skipped_of_isBlank blank)
  · intro c rest offset afterNumber invalid
    exact skipped c rest offset afterNumber (invalid_iff.mp invalid).2

theorem digits_split {digits back : List Char} (all : ∀ c ∈ digits, c.isDigit = true)
    (stops : touchesDigit back = false) :
    (digits ++ back).takeWhile Char.isDigit = digits ∧
      (digits ++ back).dropWhile Char.isDigit = back := by
  rw [List.takeWhile_append_of_pos all, List.dropWhile_append_of_pos all]
  cases back with
  | nil => simp
  | cons c back =>
      have plain : c.isDigit = false := stops
      simp [plain]

end Cursor

theorem scan_tolerant (text : List Char) :
    scan .tolerant text = .ok (Cursor.ofText text).tokens := by
  have none : (Cursor.ofText text).pieces.filterMap (Piece.error? .tolerant) = [] := by
    rw [List.filterMap_eq_nil_iff]
    intro piece _
    cases piece <;> rfl
  simp only [scan, Cursor.tokenize, none]
  rfl

end Rpn
