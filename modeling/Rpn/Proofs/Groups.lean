import Rpn.Proofs.Enclosed
import Rpn.Proofs.Origins
/-!
A group is converted on its own. Its symbols go out together, as they would without anything around
the group, and what stands around it is converted as if a number stood in its place. The marks are the
only thing that looks across a parenthesis: a minus in front of the group may negate a number there and
not a group, and a minus at the start of the group may negate a group only at the start of the text.
-/
namespace Rpn

namespace Negation

/-- The list starts with a minus in front of a group. -/
def BeginsNegatedGroup (tokens : List Token) : Prop :=
  ∃ minus opening rest, tokens = minus :: opening :: rest ∧
    minus.value = .operator (.binary .sub) ∧ opening.value = .paren .opening

/-- The list ends in a minus behind an operator or an opening parenthesis. Such a minus negates a
number that follows, and does not negate a group. -/
def EndsUndecided (tokens : List Token) : Prop :=
  ∃ init previous minus, tokens = init ++ [previous, minus] ∧
    (previous.value.isOperator ∨ previous.value = .paren .opening) ∧
    minus.value = .operator (.binary .sub)

theorem BeginsNegatedGroup.of_relabel {move : Span → Span} {tokens : List Token}
    (begins : BeginsNegatedGroup (tokens.map (Spanned.relabel move))) : BeginsNegatedGroup tokens := by
  obtain ⟨minus, opening, rest, shown, isMinus, isOpening⟩ := begins
  obtain ⟨first, behind, rfl, rfl, later⟩ := List.map_eq_cons_iff.mp shown
  obtain ⟨second, others, rfl, rfl, _⟩ := List.map_eq_cons_iff.mp later
  exact ⟨first, second, others, rfl, isMinus, isOpening⟩

section Edges

theorem negates_closing (before : Option Kind) : negates before (some (.paren .closing)) = false := by
  cases before with
  | none => rfl
  | some kind => exact Bool.and_false _

theorem negates_end (before : Option Kind) : negates before none = false := by
  cases before <;> rfl

-- Nothing negates in front of a closing parenthesis, as nothing negates at the end.
theorem markBetween_closing (before : Option Kind) (tokens : List Token) :
    markBetween before (some (.paren .closing)) tokens = markFrom before tokens := by
  induction tokens generalizing before with
  | nil => rfl
  | cons token rest ih =>
      rw [markBetween, markFrom, ih, Spanned.map, Spanned.map, resolve_congr]
      intro _
      cases rest with
      | nil => exact (negates_closing before).trans (negates_end before).symm
      | cons next rest => rfl

theorem markFrom_opening {tokens : List Token} (plain : ¬ BeginsNegatedGroup tokens) :
    markFrom (some (.paren .opening)) tokens = mark tokens := by
  cases tokens with
  | nil => rfl
  | cons token rest =>
      rw [mark, markFrom, markFrom, Spanned.map, Spanned.map, resolve_congr]
      intro minus
      cases rest with
      | nil => rfl
      | cons next rest =>
          have other : next.value ≠ .paren .opening := by
            intro group
            exact plain ⟨token, next, rest, rfl, minus, group⟩
          simp [negates, other]

theorem markFrom_closing (lexeme : List Char) (tokens : List Token) :
    markFrom (some (.paren .closing)) tokens = markFrom (some (.number lexeme)) tokens := by
  cases tokens with
  | nil => rfl
  | cons token rest =>
      rw [markFrom_ends endsOperand_closing, markFrom_ends (endsOperand_number lexeme)]

theorem markBetween_opening {tokens : List Token} (decided : ¬ EndsUndecided tokens)
    (lexeme : List Char) :
    markBetween none (some (.paren .opening)) tokens =
      markBetween none (some (.number lexeme)) tokens := by
  rcases List.eq_nil_or_concat tokens with rfl | ⟨init, last, rfl⟩
  · rfl
  rw [List.concat_eq_append, markBetween_append, markBetween_append]
  have same : resolve (lastKind none init) (some (.paren .opening)) last.value =
      resolve (lastKind none init) (some (.number lexeme)) last.value := by
    apply resolve_congr
    intro minus
    rcases List.eq_nil_or_concat init with rfl | ⟨init, previous, rfl⟩
    · rfl
    · have free : ¬ (previous.value.isOperator ∨ previous.value = .paren .opening) := by
        intro leads
        exact decided ⟨init, previous, last, by simp, leads, minus⟩
      obtain ⟨operand, other⟩ := not_or.mp free
      simp [lastKind, negates, operand, beq_eq_false_iff_ne.mpr other]
  simp only [markBetween, nextKind, List.head?_nil, Option.map_none, Option.none_or, Spanned.map, same,
    List.head?_cons, Option.map_some, Option.some_or]

end Edges

end Negation

namespace Shunting

open Brackets Negation

section Pieces
variable {front inner back : List Token}

/-- The marks inside a group and on both sides of it. -/
theorem mark_group (front inner back : List Token) (start finish : Span) :
    mark (front ++ ⟨.paren .opening, start⟩ :: (inner ++ ⟨.paren .closing, finish⟩ :: back)) =
      markBetween none (some (.paren .opening)) front ++
        ((⟨.paren .opening, start⟩ ::
          (markFrom (some (.paren .opening)) inner ++ [⟨.paren .closing, finish⟩])) ++
          markFrom (some (.paren .closing)) back) := by
  rw [mark, markFrom_append_plain _ _ (paren_ne_sub _), markFrom_append_plain _ _ (paren_ne_sub _),
    markBetween_closing]
  simp

theorem mark_number (front back : List Token) (lexeme : List Char) (place : Span) :
    mark (front ++ ⟨.number lexeme, place⟩ :: back) =
      markBetween none (some (.number lexeme)) front ++
        ([⟨.number lexeme, place⟩] ++ markFrom (some (.number lexeme)) back) := by
  rw [mark, markFrom_append_plain _ _ (number_ne_sub _)]
  rfl

/-- The symbols that go out before the group, of the group, and behind it. -/
def beforeGroup (front : List Token) : Postfix :=
  sent {} (markBetween none (some (.paren .opening)) front)

def ofGroup (inner : List Token) : Postfix := drained {} (markFrom (some (.paren .opening)) inner)

def afterGroup (front back : List Token) : Postfix :=
  drained (run {} (markBetween none (some (.paren .opening)) front)).1
    (markFrom (some (.paren .closing)) back)

/-- What stands around the group leaves nothing open. -/
def ClosedAround (front back : List Token) : Prop :=
  (run (run {} (markBetween none (some (.paren .opening)) front)).1
    (markFrom (some (.paren .closing)) back)).1.groups = []

theorem parse_group {start finish : Span}
    (balanced : Balanced (outline
      (front ++ ⟨.paren .opening, start⟩ :: (inner ++ ⟨.paren .closing, finish⟩ :: back))))
    (inside : Balanced (outline inner)) :
    ClosedAround front back ∧
      parse (front ++ ⟨.paren .opening, start⟩ :: (inner ++ ⟨.paren .closing, finish⟩ :: back)) =
        .ok (beforeGroup front ++ ofGroup inner ++ afterGroup front back) := by
  rw [← outline_mark] at balanced
  rw [← outline_markFrom (some (.paren .opening))] at inside
  have closed := (run_balanced balanced).1
  have passes := (passes_group inside start finish).run {}
    (markBetween none (some (.paren .opening)) front) (markFrom (some (.paren .closing)) back)
  rw [← mark_group] at passes
  constructor
  · rw [ClosedAround, ← passes.1, closed]
  · rw [parse_drained closed, passes.2]
    rfl

theorem parse_inner (inside : Balanced (outline inner)) (plain : ¬ BeginsNegatedGroup inner) :
    parse inner = .ok (ofGroup inner) := by
  rw [← outline_mark] at inside
  rw [parse_drained (run_balanced inside).1, ofGroup, markFrom_opening plain]

theorem parse_around (closed : ClosedAround front back) (decided : ¬ EndsUndecided front)
    (lexeme : List Char) (place : Span) :
    parse (front ++ ⟨.number lexeme, place⟩ :: back) =
      .ok (beforeGroup front ++ [⟨.number lexeme, place⟩] ++ afterGroup front back) := by
  have passes := (passes_number lexeme place).run {}
    (markBetween none (some (.paren .opening)) front) (markFrom (some (.paren .closing)) back)
  have marked := mark_number front back lexeme place
  rw [← markBetween_opening decided, ← markFrom_closing] at marked
  rw [← marked] at passes
  have ends : (run {} (mark (front ++ ⟨.number lexeme, place⟩ :: back))).1.groups = [] := by
    rw [passes.1]
    exact closed
  rw [parse_drained ends, passes.2]
  rfl

end Pieces

section Positions

/-- The output in three parts, of which the middle one comes from the tokens between the positions `lo`
and `hi`. Every token but the parentheses is the origin of one symbol. -/
structure FormsBlock (tokens : List Token) (lo hi : Nat) (before block after : Postfix) : Prop where
  once : (origins tokens).Nodup
  every : ∀ i, i ∈ origins tokens ↔ ∃ token, tokens[i]? = some token ∧ token.value.isParen = false
  parts : ∃ first middle last, origins tokens = first ++ middle ++ last ∧
    List.Forall₂ (Emits tokens) first before ∧ List.Forall₂ (Emits tokens) middle block ∧
    List.Forall₂ (Emits tokens) last after ∧
    (∀ i ∈ middle, lo < i ∧ i < hi) ∧ ∀ i ∈ first ++ last, ¬ (lo < i ∧ i < hi)

section Relabelling
variable (move : Span → Span) (front inner back : List Token)

theorem beforeGroup_relabel : beforeGroup (front.map (Spanned.relabel move)) =
    (beforeGroup front).map (Spanned.relabel move) := by
  rw [beforeGroup, markBetween_relabel]
  exact sent_relabel move {} _

theorem ofGroup_relabel : ofGroup (inner.map (Spanned.relabel move)) =
    (ofGroup inner).map (Spanned.relabel move) := by
  rw [ofGroup, markFrom_relabel]
  exact drained_relabel move {} _

theorem afterGroup_relabel :
    afterGroup (front.map (Spanned.relabel move)) (back.map (Spanned.relabel move)) =
      (afterGroup front back).map (Spanned.relabel move) := by
  have ran := run_relabel move {} (markBetween none (some (.paren .opening)) front)
  have empty : Stack.relabel move {} = {} := rfl
  rw [empty] at ran
  rw [afterGroup, markBetween_relabel, markFrom_relabel, ran]
  exact drained_relabel move _ _

end Relabelling

section Ranges
variable {front inner back : List Token} {start finish : Span} {symbol : Spanned Symbol}

theorem not_held_empty : symbol ∉ Stack.held {} := List.not_mem_nil

variable (labelled : Labelled 0 (mark
  (front ++ ⟨.paren .opening, start⟩ :: (inner ++ ⟨.paren .closing, finish⟩ :: back))))
include labelled

/-- Where the tokens around and inside a group stand when every place is a position. -/
theorem labelled_group :
    Labelled 0 (markBetween none (some (.paren .opening)) front) ∧
      Labelled (front.length + 1) (markFrom (some (.paren .opening)) inner) ∧
      Labelled (front.length + 1 + inner.length + 1) (markFrom (some (.paren .closing)) back) := by
  rw [mark_group] at labelled
  obtain ⟨first, group⟩ := labelled.append
  obtain ⟨inside, behind⟩ := group.append
  have lengthFront := markBetween_length none (some (.paren .opening)) front
  have lengthInner := markBetween_length (some (.paren .opening)) none inner
  rw [markBetween_none] at lengthInner
  rw [lengthFront, Nat.zero_add] at inside behind
  refine ⟨first, inside.tail.append.1, ?_⟩
  rw [List.length_cons, List.length_append, lengthInner] at behind
  have bound : front.length + (inner.length + 1 + 1) = front.length + 1 + inner.length + 1 := by omega
  rwa [← bound]

theorem place_before (member : symbol ∈ beforeGroup front) : symbol.span.lo < front.length := by
  have inFront := (source_of_sent member).resolve_left not_held_empty
  have range := (labelled_group labelled).1.between inFront
  rw [markBetween_length] at range
  omega

theorem place_inside (member : symbol ∈ ofGroup inner) :
    front.length < symbol.span.lo ∧ symbol.span.lo < front.length + 1 + inner.length := by
  have inInner := (source_of_drained member).resolve_left not_held_empty
  have range := (labelled_group labelled).2.1.between inInner
  rw [← markBetween_none, markBetween_length] at range
  omega

theorem place_after (member : symbol ∈ afterGroup front back) :
    symbol.span.lo < front.length ∨ front.length + 1 + inner.length < symbol.span.lo := by
  rcases source_of_drained member with waiting | inBack
  · have inFront := (source_of_held waiting).resolve_left not_held_empty
    have range := (labelled_group labelled).1.between inFront
    rw [markBetween_length] at range
    omega
  · have range := (labelled_group labelled).2.2.between inBack
    omega

end Ranges

section Numbering
variable {tokens front inner back : List Token} {start finish : Span}

theorem numbered_group
    (shown : tokens = front ++ ⟨.paren .opening, start⟩ :: (inner ++ ⟨.paren .closing, finish⟩ :: back)) :
    ∃ (front' inner' back' : List Token) (start' finish' : Span),
      numbered tokens =
        front' ++ ⟨.paren .opening, start'⟩ :: (inner' ++ ⟨.paren .closing, finish'⟩ :: back') ∧
      front = front'.map (Spanned.relabel (placeOf tokens)) ∧
      inner = inner'.map (Spanned.relabel (placeOf tokens)) ∧
      back = back'.map (Spanned.relabel (placeOf tokens)) := by
  have restored := (relabel_numbered tokens).trans shown
  obtain ⟨front', group, cut, inFront, restored⟩ := List.map_eq_append_iff.mp restored
  obtain ⟨⟨_, start'⟩, inside, rfl, opens, restored⟩ := List.map_eq_cons_iff.mp restored
  obtain ⟨inner', closed, rfl, inInner, restored⟩ := List.map_eq_append_iff.mp restored
  obtain ⟨⟨_, finish'⟩, back', rfl, closes, inBack⟩ := List.map_eq_cons_iff.mp restored
  obtain rfl := congrArg Spanned.value opens
  obtain rfl := congrArg Spanned.value closes
  exact ⟨front', inner', back', start', finish', cut, inFront.symm, inInner.symm, inBack.symm⟩

/-- The three parts of the output come from the tokens in front of the group and behind it, and from
those inside it. -/
theorem forms_block
    (shown : tokens = front ++ ⟨.paren .opening, start⟩ :: (inner ++ ⟨.paren .closing, finish⟩ :: back))
    (balanced : Balanced (outline tokens)) (inside : Balanced (outline inner)) :
    FormsBlock tokens front.length (front.length + 1 + inner.length)
      (beforeGroup front) (ofGroup inner) (afterGroup front back) := by
  obtain ⟨front', inner', back', start', finish', cut, rfl, rfl, rfl⟩ := numbered_group shown
  have labelled := labelled_mark_numbered tokens
  rw [← relabel_numbered tokens, outline_relabel] at balanced
  rw [outline_relabel] at inside
  rw [cut] at labelled balanced
  have converted := (parse_group balanced inside).2
  rw [← cut] at converted
  have once := origins_once converted
  have every := mem_origins_iff converted
  refine ⟨once, every, places (beforeGroup front'), places (ofGroup inner'),
    places (afterGroup front' back'), ?_, ?_, ?_, ?_, ?_, ?_⟩
  · rw [origins_of_parse converted, places_append, places_append]
  · rw [beforeGroup_relabel]
    apply emits_places converted
    simp
  · rw [ofGroup_relabel]
    apply emits_places converted
    simp
  · rw [afterGroup_relabel]
    apply emits_places converted
    simp
  · intro i member
    obtain ⟨symbol, present, rfl⟩ := List.mem_map.mp member
    have range := place_inside labelled present
    rwa [List.length_map, List.length_map]
  · intro i member within
    rw [List.length_map, List.length_map] at within
    rcases List.mem_append.mp member with early | late
    · obtain ⟨symbol, present, rfl⟩ := List.mem_map.mp early
      have range := place_before labelled present
      omega
    · obtain ⟨symbol, present, rfl⟩ := List.mem_map.mp late
      have range := place_after labelled present
      omega

end Numbering

end Positions

theorem balanced_of_partners {front inner back : List Token} {start finish : Span}
    (partners : Partners
      (outline (front ++ ⟨.paren .opening, start⟩ :: (inner ++ ⟨.paren .closing, finish⟩ :: back)))
      front.length (front.length + 1 + inner.length)) : Balanced (outline inner) := by
  have inside := partners.inside
  rw [← outline_take_drop] at inside
  simpa [← List.drop_drop] using inside

theorem parse_enclosed {tokens : List Token} {symbols : Postfix}
    (converted : parse tokens = .ok symbols) (plain : ¬ BeginsNegatedGroup tokens)
    (start finish : Span) :
    parse (⟨.paren .opening, start⟩ :: (tokens ++ [⟨.paren .closing, finish⟩])) = .ok symbols := by
  have inside := balanced_of_parse converted
  have alone := parse_inner inside plain
  rw [converted, Except.ok.injEq] at alone
  have whole : Balanced (outline
      ([] ++ ⟨.paren .opening, start⟩ :: (tokens ++ ⟨.paren .closing, finish⟩ :: []))) := by
    simpa [outline, Kind.side?] using Balanced.group inside .nil
  have nothing : beforeGroup [] ++ ofGroup tokens ++ afterGroup [] [] = ofGroup tokens :=
    List.append_nil (ofGroup tokens)
  rw [alone, ← nothing]
  exact (parse_group whole inside).2

theorem toPostfix_enclosed {mode : Mode} {text : List Char} {tokens : List Token} {symbols : Postfix}
    (scanned : scan mode text = .ok tokens) (converted : toPostfix mode text = .ok symbols)
    (plain : ¬ BeginsNegatedGroup tokens) :
    toPostfix mode (enclosed text) = .ok (symbols.map (Spanned.relabel (Span.shift 1))) := by
  obtain ⟨read, same, parsed⟩ := toPostfix_eq_ok.mp converted
  rw [scanned, Except.ok.injEq] at same
  subst same
  have moved := parse_relabel (Span.shift 1) tokens
  rw [parsed] at moved
  apply toPostfix_eq_ok.mpr
  exact ⟨_, scan_enclosed scanned, parse_enclosed moved (fun begins => plain begins.of_relabel) _ _⟩

/-- A group in a list of tokens whose parentheses all match sends out one block of symbols. The block
is what the tokens of the group are converted to, unless a minus in front of a group starts them, and
the other symbols are those that come out with any number in place of the group, unless a minus in
front of it would negate the number only. So a text in parentheses is converted as the text is. -/
theorem groups_compose :
    (∀ (tokens front inner back : List Token) (start finish : Span),
      tokens = front ++ ⟨.paren .opening, start⟩ :: (inner ++ ⟨.paren .closing, finish⟩ :: back) →
      Balanced (outline tokens) →
      Partners (outline tokens) front.length (front.length + 1 + inner.length) →
      ∃ before block after, parse tokens = .ok (before ++ block ++ after) ∧
        FormsBlock tokens front.length (front.length + 1 + inner.length) before block after ∧
        (¬ BeginsNegatedGroup inner → parse inner = .ok block) ∧
        (¬ EndsUndecided front → ∀ lexeme place,
          parse (front ++ ⟨.number lexeme, place⟩ :: back) =
            .ok (before ++ ⟨.number lexeme, place⟩ :: after))) ∧
    ∀ mode text tokens symbols, scan mode text = .ok tokens → toPostfix mode text = .ok symbols →
      ¬ BeginsNegatedGroup tokens →
      toPostfix mode (enclosed text) = .ok (symbols.map (Spanned.relabel (Span.shift 1))) := by
  constructor
  · intro tokens front inner back start finish shown balanced partners
    have inside : Balanced (outline inner) := by
      rw [shown] at partners
      exact balanced_of_partners partners
    have block := forms_block shown balanced inside
    rw [shown] at balanced
    obtain ⟨closed, whole⟩ := parse_group balanced inside
    rw [← shown] at whole
    refine ⟨_, _, _, whole, block, parse_inner inside, ?_⟩
    intro decided lexeme place
    rw [parse_around closed decided, List.append_assoc]
    rfl
  · intro mode text tokens symbols scanned converted plain
    exact toPostfix_enclosed scanned converted plain

/-- In `2*(3-1)+4` the group sends out `3 1 -`, and `2*7+4` has `7` in place of that block. -/
theorem groups_compose_product :
    let put : Kind → Nat → Token := fun kind place => ⟨kind, .sized place 1⟩
    let front := [put (.number ['2']) 0, put (.operator (.binary .mul)) 1]
    let inner := fun place => [put (.number ['3']) place,
      put (.operator (.binary .sub)) (place + 1), put (.number ['1']) (place + 2)]
    let back := [put (.operator (.binary .add)) 7, put (.number ['4']) 8]
    let tokens := front ++ put (.paren .opening) 2 :: (inner 3 ++ put (.paren .closing) 6 :: back)
    (∃ before block after, parse tokens = .ok (before ++ block ++ after) ∧
      FormsBlock tokens 2 6 before block after ∧ parse (inner 3) = .ok block ∧
      parse (front ++ put (.number ['7']) 2 :: back) =
        .ok (before ++ ⟨.number ['7'], .sized 2 1⟩ :: after)) ∧
    toPostfix .strict (enclosed ['3', '-', '1']) = .ok [⟨.number ['3'], .sized 1 1⟩,
      ⟨.number ['1'], .sized 3 1⟩, ⟨.operator (.binary .sub), .sized 2 1⟩] := by
  intro put front inner back tokens
  have balanced : Balanced (outline tokens) := (balanced_iff _).mpr rfl
  have partners : Partners (outline tokens) 2 6 := ⟨by decide, rfl, rfl, (balanced_iff _).mpr rfl⟩
  have plain : ∀ place, ¬ BeginsNegatedGroup (inner place) := by
    rintro place ⟨minus, opening, rest, shown, isMinus, _⟩
    injection shown with first _
    rw [← first] at isMinus
    contradiction
  have decided : ¬ EndsUndecided front := by
    rintro ⟨init, previous, minus, shown, _, isMinus⟩
    have last : front.getLast? = some minus := by simp [shown]
    obtain rfl : put (.operator (.binary .mul)) 1 = minus := Option.some.inj last
    cases isMinus
  constructor
  · obtain ⟨before, block, after, whole, forms, alone, around⟩ :=
      groups_compose.1 tokens front (inner 3) back (.sized 2 1) (.sized 6 1) rfl balanced partners
    exact ⟨before, block, after, whole, forms, alone (plain 3), around decided _ _⟩
  · have scanned : scan .strict ['3', '-', '1'] = .ok (inner 0) := by decide +kernel
    have converted : toPostfix .strict ['3', '-', '1'] = .ok [⟨.number ['3'], .sized 0 1⟩,
        ⟨.number ['1'], .sized 2 1⟩, ⟨.operator (.binary .sub), .sized 1 1⟩] := by decide +kernel
    exact groups_compose.2 .strict _ _ _ scanned converted (plain 0)

end Shunting

end Rpn
