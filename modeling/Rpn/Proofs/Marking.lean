import Rpn.Negation
import Rpn.Proofs.Brackets
/-!
What marking the negations keeps. A token is marked from its two neighbours in the unmarked list, its
place stays, and no parenthesis and no number is touched.
-/
namespace Rpn.Negation

def kindAt (tokens : List Token) (i : Nat) : Option Kind := tokens[i]?.map Spanned.value

/-- The kind in front of position `i`. -/
def kindBefore (tokens : List Token) : Nat → Option Kind
  | 0 => none
  | i + 1 => kindAt tokens i

theorem markFrom_getElem? (before : Option Kind) (tokens : List Token) (i : Nat) :
    (markFrom before tokens)[i]? = tokens[i]?.map fun token => token.map
      (resolve (if i = 0 then before else kindBefore tokens i) (kindAt tokens (i + 1))) := by
  induction tokens generalizing before i with
  | nil => simp [markFrom]
  | cons token rest ih =>
      cases i with
      | zero => cases rest <;> simp [markFrom, kindAt]
      | succ i =>
          rw [markFrom, List.getElem?_cons_succ, ih]
          cases i <;> simp [kindBefore, kindAt]

theorem mark_getElem? (tokens : List Token) (i : Nat) :
    (mark tokens)[i]? = tokens[i]?.map fun token => token.map
      (resolve (kindBefore tokens i) (kindAt tokens (i + 1))) := by
  rw [mark, markFrom_getElem?]
  cases i <;> rfl

theorem resolve_of_ne_sub {kind : Kind} (before after : Option Kind)
    (other : kind ≠ .operator (.binary .sub)) : resolve before after kind = kind := by
  simp [resolve, other]

-- Only a minus is looked at in its neighbours.
theorem resolve_congr {before after before' after' : Option Kind} {kind : Kind}
    (same : kind = .operator (.binary .sub) → negates before after = negates before' after') :
    resolve before after kind = resolve before' after' kind := by
  by_cases minus : kind = .operator (.binary .sub)
  · rw [resolve, resolve, same minus]
  · rw [resolve_of_ne_sub _ _ minus, resolve_of_ne_sub _ _ minus]

theorem number_ne_sub (lexeme : List Char) : Kind.number lexeme ≠ .operator (.binary .sub) := nofun

theorem paren_ne_sub (side : Side) : Kind.paren side ≠ .operator (.binary .sub) := nofun

theorem resolve_side (before after : Option Kind) (kind : Kind) :
    (resolve before after kind).side? = kind.side? := by
  unfold resolve
  split
  · rename_i marked
    rw [marked.1]
    rfl
  · rfl

theorem resolve_eq_paren {before after : Option Kind} {kind : Kind} {side : Side} :
    resolve before after kind = .paren side ↔ kind = .paren side := by
  unfold resolve
  split
  · rename_i marked
    simp [marked.1]
  · rfl

theorem outline_markFrom (before : Option Kind) (tokens : List Token) :
    outline (markFrom before tokens) = outline tokens := by
  induction tokens generalizing before with
  | nil => rfl
  | cons token rest ih =>
      have tail := ih (some token.value)
      rw [outline] at tail
      rw [outline, markFrom, List.map_cons, tail, Spanned.map, resolve_side]
      rfl

theorem outline_mark (tokens : List Token) : outline (mark tokens) = outline tokens :=
  outline_markFrom none tokens

theorem mark_paren_iff (tokens : List Token) (i : Nat) (side : Side) (place : Span) :
    (mark tokens)[i]? = some ⟨.paren side, place⟩ ↔ tokens[i]? = some ⟨.paren side, place⟩ := by
  rw [mark_getElem?]
  cases tokens[i]? with
  | none => simp
  | some token =>
      obtain ⟨kind, span⟩ := token
      simp [Spanned.map, resolve_eq_paren]

/-- A minus at position `i` stands where it negates what follows: in front of a number or a group at
the very start, and in front of a number behind an operator or an opening parenthesis. -/
def Negates (tokens : List Token) (i : Nat) : Prop :=
  (i = 0 ∧ ∃ after, kindAt tokens 1 = some after ∧ (after.isNumber ∨ after = .paren .opening)) ∨
  (0 < i ∧ ∃ before after, kindAt tokens (i - 1) = some before ∧ kindAt tokens (i + 1) = some after ∧
    (before.isOperator ∨ before = .paren .opening) ∧ after.isNumber)

/-- The kind of the token at position `i` when every minus that negates counts as a negation. -/
def Reads (tokens : List Token) (i : Nat) (kind : Kind) : Prop :=
  ∃ original, kindAt tokens i = some original ∧
    (original = .operator (.binary .sub) ∧ Negates tokens i → kind = .operator .negate) ∧
    (¬ (original = .operator (.binary .sub) ∧ Negates tokens i) → kind = original)

theorem negates_iff {tokens : List Token} {i : Nat} (bound : i < tokens.length) :
    negates (kindBefore tokens i) (kindAt tokens (i + 1)) = true ↔ Negates tokens i := by
  cases i with
  | zero =>
      simp only [kindBefore, Negates, Nat.zero_add, Nat.lt_irrefl, false_and, or_false, true_and]
      cases kindAt tokens 1 with
      | none => simp [negates]
      | some after => simp [negates]
  | succ i =>
      have before : kindAt tokens i = some tokens[i].value := by
        simp [kindAt, List.getElem?_eq_getElem (Nat.lt_of_succ_lt bound)]
      simp only [kindBefore, Negates, Nat.add_sub_cancel, before, Nat.succ_ne_zero, false_and,
        false_or, Nat.succ_pos, true_and]
      cases kindAt tokens (i + 1 + 1) with
      | none => simp [negates]
      | some after => simp [negates]

theorem kindAt_mark {tokens : List Token} {i : Nat} {token : Token} (found : tokens[i]? = some token) :
    kindAt (mark tokens) i =
      some (resolve (kindBefore tokens i) (kindAt tokens (i + 1)) token.value) := by
  rw [kindAt, mark_getElem?, found]
  rfl

theorem reads_iff (tokens : List Token) (i : Nat) (kind : Kind) :
    Reads tokens i kind ↔ kindAt (mark tokens) i = some kind := by
  cases found : tokens[i]? with
  | none => simp [Reads, kindAt, mark_getElem?, found]
  | some token =>
      have original : kindAt tokens i = some token.value := by simp [kindAt, found]
      have negates := negates_iff (List.getElem?_eq_some_iff.mp found).1
      rw [kindAt_mark found, Option.some.injEq, Reads]
      simp only [original, Option.some.injEq, exists_eq_left', resolve, ← negates]
      split
      · rename_i marked
        simp only [marked, not_true_eq_false, and_self, true_implies, false_implies, and_true]
        exact eq_comm
      · rename_i unmarked
        simp only [unmarked, not_false_eq_true, true_implies, false_implies, true_and]
        exact eq_comm

theorem Reads.unique {tokens : List Token} {i : Nat} {kind other : Kind}
    (first : Reads tokens i kind) (second : Reads tokens i other) : kind = other := by
  rw [reads_iff] at first second
  exact Option.some.inj (first.symm.trans second)

section Operands

/-- A minus that follows subtracts. -/
def EndsOperand (kind : Kind) : Prop := ∀ after, negates (some kind) after = false

theorem endsOperand_number (lexeme : List Char) : EndsOperand (.number lexeme) := by
  intro after
  cases after <;> rfl

theorem endsOperand_closing : EndsOperand (.paren .closing) := by
  intro after
  cases after <;> rfl

theorem markFrom_plain {kind : Kind} (plain : kind ≠ .operator (.binary .sub))
    (before : Option Kind) (place : Span) (rest : List Token) :
    markFrom before (⟨kind, place⟩ :: rest) = ⟨kind, place⟩ :: markFrom (some kind) rest := by
  rw [markFrom, Spanned.map, resolve_of_ne_sub _ _ plain]

theorem markFrom_ends {kind : Kind} (ends : EndsOperand kind) (token : Token) (rest : List Token) :
    markFrom (some kind) (token :: rest) = token :: markFrom (some token.value) rest := by
  have kept : ∀ after, resolve (some kind) after token.value = token.value := by
    intro after
    simp [resolve, ends after]
  rw [markFrom, Spanned.map, kept]

end Operands

section Stretches

/-- The kind behind a stretch, `after` being the one behind what follows it. -/
def nextKind (after : Option Kind) (tokens : List Token) : Option Kind :=
  (tokens.head?.map Spanned.value).or after

/-- The kind in front of what follows a stretch, `before` being the one in front of the stretch. -/
def lastKind (before : Option Kind) (tokens : List Token) : Option Kind :=
  (tokens.getLast?.map Spanned.value).or before

/-- The marks of a stretch of a list that stands between two kinds. -/
def markBetween (before after : Option Kind) : List Token → List Token
  | [] => []
  | token :: rest =>
    token.map (resolve before (nextKind after rest)) :: markBetween (some token.value) after rest

theorem markBetween_none (before : Option Kind) (tokens : List Token) :
    markBetween before none tokens = markFrom before tokens := by
  induction tokens generalizing before with
  | nil => rfl
  | cons token rest ih => rw [markBetween, markFrom, ih, nextKind, Option.or_none]

theorem nextKind_append (after : Option Kind) (front back : List Token) :
    nextKind after (front ++ back) = nextKind (nextKind after back) front := by
  cases front with
  | nil => simp [nextKind]
  | cons token rest => simp [nextKind]

theorem lastKind_cons (before : Option Kind) (token : Token) (rest : List Token) :
    lastKind before (token :: rest) = lastKind (some token.value) rest := by
  rw [lastKind, lastKind, List.getLast?_cons]
  cases rest.getLast? <;> rfl

theorem markBetween_append (before after : Option Kind) (front back : List Token) :
    markBetween before after (front ++ back) =
      markBetween before (nextKind after back) front ++
        markBetween (lastKind before front) after back := by
  induction front generalizing before with
  | nil => simp [markBetween, lastKind]
  | cons token rest ih =>
      rw [List.cons_append, markBetween, markBetween, ih, nextKind_append, lastKind_cons,
        List.cons_append]

-- A token is marked from the last token in front of it and the first one behind it.
theorem markFrom_append_cons (before : Option Kind) (front : List Token) (token : Token)
    (back : List Token) :
    markFrom before (front ++ token :: back) =
      markBetween before (some token.value) front ++
        token.map (resolve (lastKind before front) (nextKind none back)) ::
          markFrom (some token.value) back := by
  rw [← markBetween_none, markBetween_append, markBetween, markBetween_none]
  rfl

theorem markFrom_append_plain (before : Option Kind) (front : List Token) {token : Token}
    (plain : token.value ≠ .operator (.binary .sub)) (back : List Token) :
    markFrom before (front ++ token :: back) =
      markBetween before (some token.value) front ++ token :: markFrom (some token.value) back := by
  rw [markFrom_append_cons, Spanned.map, resolve_of_ne_sub _ _ plain]

theorem markBetween_spans (before after : Option Kind) (tokens : List Token) :
    (markBetween before after tokens).map Spanned.span = tokens.map Spanned.span := by
  induction tokens generalizing before with
  | nil => rfl
  | cons token rest ih => rw [markBetween, List.map_cons, List.map_cons, ih, Spanned.map]

theorem markBetween_length (before after : Option Kind) (tokens : List Token) :
    (markBetween before after tokens).length = tokens.length := by
  have spans := congrArg List.length (markBetween_spans before after tokens)
  simpa using spans

theorem mark_length (tokens : List Token) : (mark tokens).length = tokens.length := by
  rw [mark, ← markBetween_none, markBetween_length]

end Stretches

end Rpn.Negation
