import Rpn.Proofs.Cuts
/-!
Reading one text behind another. With blanks between them the tokens of the first text stay, and of the
second one only the first token can change: behind a number a minus cannot be the sign of a number, so
it is read on its own. All that the first text has to do with it is whether it ends in a number.
-/
namespace Rpn

/-- The tokens of a text when a number stands in front of it. Where the text starts with a number that
has a sign, the minus and the digits are two tokens. -/
def splitSign : List Token → List Token
  | ⟨.number ('-' :: digits), place⟩ :: later =>
    ⟨.operator (.binary .sub), .sized place.lo 1⟩ ::
      ⟨.number digits, .sized (place.lo + 1) (Text.size digits)⟩ :: later
  | tokens => tokens

/-- The tokens of a text, given whether the last token in front of it is a number. -/
def readBehind (number : Bool) (tokens : List Token) : List Token :=
  if number then splitSign tokens else tokens

section Sign

theorem splitSign_unsigned {kind : Kind} (unsigned : ∀ digits, kind ≠ .number ('-' :: digits))
    (place : Span) (later : List Token) : splitSign (⟨kind, place⟩ :: later) = ⟨kind, place⟩ :: later := by
  rw [splitSign]
  intro digits other rest same
  exact unsigned digits (congrArg Spanned.value (List.cons.inj same).1)

namespace Cursor

/-- Behind a number a text is read as without one in front, but for a sign at its start. -/
theorem tokens_behind_number (text : List Char) (offset : Nat) (afterNumber : Bool) :
    afterNumber = false →
      (Cursor.mk text offset true).tokens = splitSign (Cursor.mk text offset afterNumber).tokens := by
  induction text, offset, afterNumber using Cursor.tokens_induction with
  | done offset afterNumber =>
      intro _
      rw [tokens_end, tokens_end]
      rfl
  | skipped c rest offset afterNumber skipped ih =>
      intro start
      rw [tokens_skipped skipped, tokens_skipped skipped, ih start]
  | numeral c rest offset afterNumber begins _ =>
      rintro rfl
      cases digit : c.isDigit with
      | true =>
          have same : beginsNumeral true c rest = true := by rw [beginsNumeral, digit, Bool.true_or]
          rw [tokens_numeral same, tokens_numeral begins, splitSign_unsigned]
          intro digits signed
          obtain ⟨rfl, _⟩ := List.cons.inj (Kind.number.inj signed)
          contradiction
      | false =>
          obtain ⟨rfl, touches⟩ : c = '-' ∧ touchesDigit rest = true := by
            simpa [beginsNumeral, digit] using begins
          cases rest with
          | nil => contradiction
          | cons d rest =>
              -- The minus is a token of its own, and the digit behind it starts a number.
              have isDigit : d.isDigit = true := touches
              have alone : beginsNumeral true '-' (d :: rest) = false := rfl
              have number : beginsNumeral false d rest = true := by
                rw [beginsNumeral, isDigit, Bool.true_or]
              rw [tokens_single alone rfl, tokens_numeral number, tokens_numeral begins,
                List.takeWhile_cons_of_pos isDigit, List.dropWhile_cons_of_pos isDigit, splitSign,
                Nat.add_assoc]
              rfl
  | sign c rest offset afterNumber kind single known _ =>
      rintro rfl
      obtain ⟨_, plain, _, digit, _⟩ := ofChar?_eq_some known
      have same : beginsNumeral true c rest = false := by simp [beginsNumeral, digit]
      rw [tokens_single same known, tokens_single single known, splitSign_unsigned]
      rintro digits rfl
      contradiction

theorem tokens_readBehind (text : List Char) (offset : Nat) (afterNumber : Bool) :
    (Cursor.mk text offset afterNumber).tokens =
      readBehind afterNumber (Cursor.mk text offset false).tokens := by
  cases afterNumber with
  | false => rfl
  | true => exact tokens_behind_number text offset false rfl

end Cursor

end Sign

section Joining

theorem numberLast_false (tokens : List Token) :
    numberLast false tokens = tokens.getLast?.any fun last => last.value.isNumber := by
  rw [numberLast]
  cases tokens.getLast? <;> rfl

theorem tokens_joined (front back : List Char) {gap : List Char} (skipped : ∀ c ∈ gap, Skipped c)
    (apart : Cursor.touchesDigit (gap ++ back) = true →
      Undivided (Cursor.ofText (front ++ (gap ++ back))).tokens (Text.size front)) :
    (Cursor.ofText (front ++ gap ++ back)).tokens = (Cursor.ofText front).tokens ++
      (readBehind ((Cursor.ofText front).tokens.getLast?.any fun last => last.value.isNumber)
        (Cursor.ofText back).tokens).map
          (Spanned.relabel (Span.shift (Text.size (front ++ gap)))) := by
  have cut := Cursor.pieces_cut front (gap ++ back) 0 false (by rwa [Nat.zero_add])
  let number := numberLast false (Cursor.ofText front).tokens
  calc (Cursor.ofText (front ++ gap ++ back)).tokens
    _ = (Cursor.ofText front).tokens ++
        (Cursor.mk (gap ++ back) (0 + Text.size front) number).tokens := by
      rw [List.append_assoc, Cursor.tokens, Cursor.ofText, cut, List.filterMap_append]
      rfl
    _ = (Cursor.ofText front).tokens ++
        (Cursor.mk back (0 + Text.size (front ++ gap)) number).tokens := by
      rw [Cursor.tokens_gap skipped, Text.size_append, Nat.add_assoc]
    _ = _ := by
      rw [Cursor.tokens_shift, Cursor.tokens_readBehind back, ← numberLast_false]
      rfl

end Joining

/-- The tokens of two texts with blanks between them are those of the first text and, behind them, those
of the second one as they are read behind the last token of the first: a number there splits the sign
off a number that the second text starts with, and all other tokens only move. The same holds of a text
that is cut in two where no token stands on both sides. -/
theorem concatenation_exact (front back : List Char) :
    ∃ first second, scan .tolerant front = .ok first ∧ scan .tolerant back = .ok second ∧
      (∀ gap : List Char, gap ≠ [] → (∀ c ∈ gap, Text.isBlank c = true) →
        scan .tolerant (front ++ gap ++ back) = .ok (first ++
          (readBehind (first.getLast?.any fun last => last.value.isNumber) second).map
            (Spanned.relabel (Span.shift (Text.size (front ++ gap)))))) ∧
      ∀ whole, scan .tolerant (front ++ back) = .ok whole → Undivided whole (Text.size front) →
        whole = first ++
          (readBehind (first.getLast?.any fun last => last.value.isNumber) second).map
            (Spanned.relabel (Span.shift (Text.size front))) := by
  refine ⟨_, _, scan_tolerant front, scan_tolerant back, ?_, ?_⟩
  · intro gap filled blank
    have skipped : ∀ c ∈ gap, Skipped c := fun c member => skipped_of_isBlank (blank c member)
    rw [scan_tolerant, tokens_joined front back skipped]
    intro touches
    rw [Cursor.touchesDigit_gap filled skipped] at touches
    contradiction
  · intro whole scanned undivided
    obtain rfl := scan_eq_ok scanned
    have none : ∀ c ∈ ([] : List Char), Skipped c := nofun
    have joined := tokens_joined front back none fun _ => undivided
    rwa [List.append_nil] at joined

/-- Behind `3` the text `-4*5` starts with a minus and a `4`, with a blank between them or not, and behind
`3(` with a number that has a sign. -/
theorem concatenation_exact_signed :
    let product : Nat → List Token := fun place =>
      [⟨.operator (.binary .mul), .sized place 1⟩, ⟨.number ['5'], .sized (place + 1) 1⟩]
    let difference : Nat → List Token := fun place => ⟨.number ['3'], .sized 0 1⟩ ::
      ⟨.operator (.binary .sub), .sized place 1⟩ :: ⟨.number ['4'], .sized (place + 1) 1⟩ ::
      product (place + 2)
    scan .tolerant ['3', ' ', '-', '4', '*', '5'] = .ok (difference 2) ∧
      scan .tolerant ['3', '-', '4', '*', '5'] = .ok (difference 1) ∧
      scan .tolerant ['3', '(', ' ', '-', '4', '*', '5'] = .ok (⟨.number ['3'], .sized 0 1⟩ ::
        ⟨.paren .opening, .sized 1 1⟩ :: ⟨.number ['-', '4'], .sized 3 2⟩ :: product 5) := by
  intro product difference
  have signed : scan .tolerant ['-', '4', '*', '5'] =
      .ok (⟨.number ['-', '4'], .sized 0 2⟩ :: product 2) := by decide +kernel
  have number : scan .tolerant ['3'] = .ok [⟨.number ['3'], .sized 0 1⟩] := by decide +kernel
  have opened : scan .tolerant ['3', '('] =
      .ok [⟨.number ['3'], .sized 0 1⟩, ⟨.paren .opening, .sized 1 1⟩] := by decide +kernel
  have read : scan .tolerant ['3', '-', '4', '*', '5'] = .ok (difference 1) := by decide +kernel
  obtain ⟨_, _, first, second, apart, close⟩ := concatenation_exact ['3'] ['-', '4', '*', '5']
  obtain ⟨_, _, firstOpened, secondOpened, apartOpened, _⟩ :=
    concatenation_exact ['3', '('] ['-', '4', '*', '5']
  rw [number, Except.ok.injEq] at first
  rw [signed, Except.ok.injEq] at second secondOpened
  rw [opened, Except.ok.injEq] at firstOpened
  subst first second secondOpened firstOpened
  have joined := close _ read (by decide)
  rw [read, joined]
  have blank : ∀ c ∈ [' '], Text.isBlank c = true := List.forall_mem_singleton.mpr (by decide)
  exact ⟨apart [' '] (by decide) blank, rfl, apartOpened [' '] (by decide) blank⟩

end Rpn
