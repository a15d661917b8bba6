import Rpn.Proofs.Frames
import Rpn.Proofs.Marking
import Rpn.Proofs.Tracing
import Rpn.Yard
/-!
One stack in place of layers. The groups and the operators that wait in them lie on the stack of a
yard with the parentheses between the layers, and after any number of tokens the yard has sent out the
same symbols and logged the same. So it converts as the layers do, with the same log.
-/
namespace Rpn.Shunting

/-- The operators of a layer as they stand on the stack, the earliest first. -/
def stacked (layer : Layer) : List Token := (layer.map fun op => op.map Kind.operator).reverse

/-- The groups around the innermost layer, each with what waits outside it. -/
def below : List Group → List Token
  | [] => []
  | group :: outer => below outer ++ stacked group.outside ++ [group.paren.map Kind.paren]

/-- The whole stack from its bottom to its top. -/
def Stack.entries (stack : Stack) : List Token := below stack.groups ++ stacked stack.waiting

theorem entries_enclosed (waiting : Layer) (group : Group) (outer : List Group) :
    (Stack.mk waiting (group :: outer)).entries =
      (Stack.mk group.outside outer).entries ++ group.paren.map Kind.paren :: stacked waiting := by
  simp [Stack.entries, below]

/-- The same from its top to its bottom. -/
def Stack.pile (stack : Stack) : List Token := stack.entries.reverse

section Pops
variable (waiting : Layer) (groups : List Group) (output : Postfix) (op : Spanned Operator)

theorem pile_waiting : (Stack.mk (op :: waiting) groups).pile =
    op.map Kind.operator :: (Stack.mk waiting groups).pile := by
  simp [Stack.pile, Stack.entries, stacked]

theorem pile_group (group : Group) : (Stack.mk [] (group :: groups)).pile =
    group.paren.map Kind.paren :: (Stack.mk group.outside groups).pile := by
  simp [Stack.pile, entries_enclosed, stacked]

-- The operators of outer groups are out of reach behind a parenthesis.
theorem yield_pile (notes : List Note) :
    Yard.yield (op.map Kind.operator) (Stack.mk waiting groups).pile output notes =
      ((Stack.mk (waiting.dropWhile (Stack.yieldsTo op)) groups).pile,
        output ++ (waiting.takeWhile (Stack.yieldsTo op)).map written,
        notes ++ ((waiting.takeWhile (Stack.yieldsTo op)).map Spanned.value).map .pop) := by
  induction waiting generalizing output notes with
  | nil =>
      cases groups with
      | nil => simp [Stack.pile, Stack.entries, below, stacked, Yard.yield]
      | cons group outer =>
          have stops : Yard.ranksAbove (group.paren.map Kind.paren).value
              (op.map Kind.operator).value = false := rfl
          simp [pile_group, Yard.yield, stops]
  | cons top rest ih =>
      have above : Yard.ranksAbove (top.map Kind.operator).value (op.map Kind.operator).value =
          Stack.yieldsTo op top := rfl
      have sent : Yard.emit output (top.map Kind.operator) = output ++ [written top] := rfl
      have noted : Yard.popped (top.map Kind.operator) = [.pop top.value] := rfl
      rw [pile_waiting, Yard.yield, above, sent, noted, ih, List.takeWhile_cons, List.dropWhile_cons]
      cases Stack.yieldsTo op top <;> simp [pile_waiting]

-- A closing parenthesis releases the operators of its group, whatever comes under them.
theorem close_released (closing : Token) :
    Yard.close closing (Stack.mk waiting groups).pile output =
      Yard.close closing (Stack.mk [] groups).pile (output ++ waiting.map written) := by
  induction waiting generalizing output with
  | nil => simp
  | cons top rest ih =>
      have released := ih (output ++ [written top])
      rw [List.append_assoc] at released
      rw [pile_waiting]
      exact released

theorem close_partner (closing : Token) (start : Span) (outside : Layer) :
    Yard.close closing (Stack.mk waiting (⟨⟨.opening, start⟩, outside⟩ :: groups)).pile output =
      ((Stack.mk outside groups).pile, output ++ waiting.map written, []) := by
  rw [close_released, pile_group]
  rfl

theorem close_unmatched (place : Span) (alone : ∀ group ∈ groups.head?, group.paren.value = .closing) :
    Yard.close ⟨.paren .closing, place⟩ (Stack.mk waiting groups).pile output =
      ((Stack.mk [] (⟨⟨.closing, place⟩, []⟩ :: groups)).pile, output ++ waiting.map written,
        [.unmatched place]) := by
  rw [close_released, pile_group groups ⟨⟨.closing, place⟩, []⟩]
  cases groups with
  | nil => rfl
  | cons group outer =>
      obtain ⟨⟨side, start⟩, outside⟩ := group
      obtain rfl : side = .closing := alone _ rfl
      rw [pile_group]
      rfl

theorem finish_pile : Yard.finish (Stack.mk waiting groups).pile output =
    Yard.finish (Stack.mk [] groups).pile (output ++ waiting.map written) := by
  induction waiting generalizing output with
  | nil => simp
  | cons top rest ih =>
      have released := ih (output ++ [written top])
      rw [List.append_assoc] at released
      rw [pile_waiting]
      exact released

end Pops

section Turns

/-- The yard holds what lies in the layers and has sent out these symbols. -/
structure Holds (yard : Yard) (stack : Stack) (out : Postfix) : Prop where
  stack : yard.stack = stack.pile
  output : yard.output = out

theorem partner_or_alone (groups : List Group) :
    (∃ start outside outer, groups = ⟨⟨.opening, start⟩, outside⟩ :: outer) ∨
      ∀ group ∈ groups.head?, group.paren.value = .closing := by
  rcases groups with _ | ⟨⟨⟨side, start⟩, outside⟩, outer⟩
  · exact .inr (by simp)
  · cases side with
    | opening => exact .inl ⟨start, outside, outer, rfl⟩
    | closing => exact .inr (by simp)

theorem closeGroup_alone {groups : List Group} (waiting : Layer) (place : Span)
    (alone : ∀ group ∈ groups.head?, group.paren.value = .closing) :
    (Stack.mk waiting groups).closeGroup place =
      (⟨[], ⟨⟨.closing, place⟩, []⟩ :: groups⟩, waiting.map .release ++ [.unmatched place]) := by
  rcases groups with _ | ⟨⟨⟨side, start⟩, outside⟩, outer⟩
  · rfl
  · obtain rfl : side = .closing := alone _ rfl
    rfl

theorem Holds.place {yard : Yard} {stack : Stack} {out : Postfix} (holds : Holds yard stack out)
    (token : Token) : Holds (yard.place token) (step stack token).1
      (out ++ (step stack token).2.filterMap Action.symbol?) := by
  obtain ⟨tokens, position, previous, pile, output, notes⟩ := yard
  obtain ⟨rfl, rfl⟩ := holds
  obtain ⟨kind, place⟩ := token
  obtain ⟨waiting, groups⟩ := stack
  rcases kind with lexeme | op | side
  · exact ⟨rfl, rfl⟩
  · have yields := yield_pile waiting groups output ⟨op, place⟩
    have arrived : Spanned.map Kind.operator ⟨op, place⟩ = ⟨.operator op, place⟩ := rfl
    rw [arrived] at yields
    refine ⟨?_, ?_⟩
    · simp only [Yard.place, yields, step, Stack.hold, pile_waiting, arrived]
    · rw [step, symbols_hold]
      simp only [Yard.place, yields]
  · cases side with
    | opening =>
        refine ⟨?_, (List.append_nil output).symm⟩
        exact (pile_group groups ⟨⟨.opening, place⟩, waiting⟩).symm
    | closing =>
        have released := symbols_released ⟨waiting, groups⟩
        rw [Stack.released] at released
        rcases partner_or_alone groups with ⟨start, outside, outer, rfl⟩ | alone
        · have partner := close_partner waiting outer output ⟨.paren .closing, place⟩ start outside
          refine ⟨?_, ?_⟩
          · simp only [Yard.place, partner, step, Stack.closeGroup]
          · simp only [Yard.place, partner, step, Stack.closeGroup, Stack.released, released]
        · have stays := close_unmatched waiting groups output place alone
          have none : [Action.unmatched place].filterMap Action.symbol? = [] := rfl
          refine ⟨?_, ?_⟩
          · simp only [Yard.place, stays, step, closeGroup_alone waiting place alone]
          · simp only [Yard.place, stays, step, closeGroup_alone waiting place alone,
              List.filterMap_append, released, none, List.append_nil]

/-- The note on a token that negates. -/
def arrival (token : Token) : List Note :=
  if token.value = .operator .negate then [.negation token.span] else []

-- All notes on a token but that one are made as it is placed.
theorem Holds.place_notes {yard : Yard} {stack : Stack} {out : Postfix}
    (holds : Holds yard stack out) (token : Token) :
    ∃ added, (yard.place token).notes = yard.notes ++ added ∧
      (step stack token).2.filterMap Action.note? = arrival token ++ added := by
  obtain ⟨tokens, position, previous, pile, output, notes⟩ := yard
  obtain ⟨rfl, rfl⟩ := holds
  obtain ⟨kind, place⟩ := token
  obtain ⟨waiting, groups⟩ := stack
  rcases kind with lexeme | op | side
  · exact ⟨[], (List.append_nil notes).symm, rfl⟩
  · have yields := yield_pile waiting groups output ⟨op, place⟩ notes
    have arrived : Spanned.map Kind.operator ⟨op, place⟩ = ⟨.operator op, place⟩ := rfl
    rw [arrived] at yields
    have arrives : (Action.ofArrival ⟨op, place⟩).filterMap Action.note? =
        arrival ⟨.operator op, place⟩ := by
      cases op <;> rfl
    refine ⟨((waiting.takeWhile (Stack.yieldsTo ⟨op, place⟩)).map Spanned.value).map .pop ++
      [.push op], ?_, ?_⟩
    · simp only [Yard.place, yields, List.append_assoc]
    · rw [step, Trace.notes_hold, arrives]
  · cases side with
    | opening => exact ⟨[], (List.append_nil notes).symm, rfl⟩
    | closing =>
        have released := Trace.notes_released ⟨waiting, groups⟩
        rw [Stack.released] at released
        rcases partner_or_alone groups with ⟨start, outside, outer, rfl⟩ | alone
        · have partner := close_partner waiting outer output ⟨.paren .closing, place⟩ start outside
          refine ⟨[], ?_, ?_⟩
          · simp only [Yard.place, partner]
          · simp only [step, Stack.closeGroup, Stack.released, released]
            rfl
        · have stays := close_unmatched waiting groups output place alone
          refine ⟨[.unmatched place], ?_, ?_⟩
          · simp only [Yard.place, stays]
          · simp only [step, closeGroup_alone waiting place alone, List.filterMap_append, released]
            rfl

-- In front of another token a minus counts as an operator however it is read.
theorem negates_resolve (before after next : Option Kind) (kind : Kind) :
    Negation.negates (some (Negation.resolve before after kind)) next =
      Negation.negates (some kind) next := by
  unfold Negation.resolve
  split
  · rename_i marked
    rw [marked.1]
    cases next <;> rfl
  · rfl

theorem noted_resolve (before after : Option Kind) {token : Token}
    (unmarked : token.value ≠ .operator .negate) :
    (if (token.map (Negation.resolve before after)).value = token.value then []
      else [.negation token.span]) = arrival (token.map (Negation.resolve before after)) := by
  by_cases minus : token.value = .operator (.binary .sub) ∧ Negation.negates before after
  · have read : Negation.resolve before after token.value = .operator .negate := if_pos minus
    have changed : Kind.operator .negate ≠ token.value := unmarked.symm
    simp only [arrival, Spanned.map, read, if_neg changed, if_true]
  · have read : Negation.resolve before after token.value = token.value := if_neg minus
    simp [arrival, Spanned.map, read, unmarked]

/-- The log of these tokens, placed on a stack as they are. -/
def logged (stack : Stack) (tokens : List Token) : List Note :=
  (run stack tokens).2.filterMap Action.note?

theorem logged_snoc (stack : Stack) (front : List Token) (token : Token) :
    logged stack (front ++ [token]) =
      logged stack front ++ (step (run stack front).1 token).2.filterMap Action.note? := by
  simp [logged, run_append, run]

/-- No minus has been marked yet. -/
def Unmarked (tokens : List Token) : Prop := ∀ token ∈ tokens, token.value ≠ .operator .negate

/-- After `k` turns the yard holds what the first `k` tokens leave in the layers. -/
structure Turned (tokens : List Token) (k : Nat) (yard : Yard) : Prop where
  text : yard.tokens = tokens
  place : yard.position = min k tokens.length
  before : ∀ next, Negation.negates yard.previous next =
    Negation.negates (Negation.kindBefore tokens yard.position) next
  holds : Holds yard (run {} ((Negation.mark tokens).take k)).1
    (sent {} ((Negation.mark tokens).take k))
  notes : Unmarked tokens → yard.notes = logged {} ((Negation.mark tokens).take k)

theorem place_tokens (yard : Yard) (token : Token) : (yard.place token).tokens = yard.tokens := by
  unfold Yard.place
  split <;> rfl

-- The next token is placed as marking all the tokens would read it.
theorem turn_eq {yard : Yard} {k : Nat} (here : yard.position = k) (inside : k < yard.tokens.length)
    (before : ∀ next, Negation.negates yard.previous next =
      Negation.negates (Negation.kindBefore yard.tokens yard.position) next) :
    ∃ token noted, (Negation.mark yard.tokens)[k]? = some token ∧
      (∀ next, Negation.negates (some token.value) next =
        Negation.negates (Negation.kindAt yard.tokens k) next) ∧
      (Unmarked yard.tokens → noted = arrival token) ∧
      yard.turn = { Yard.place { yard with notes := yard.notes ++ noted } token with
        position := yard.position + 1, previous := some token.value } := by
  have token : yard.ahead 0 = some yard.tokens[k] := by simp [Yard.ahead, here, inside]
  have next : (yard.ahead 1).map Spanned.value = Negation.kindAt yard.tokens (k + 1) := by
    rw [Yard.ahead, here, Negation.kindAt]
  refine ⟨yard.tokens[k].map (Negation.resolve yard.previous ((yard.ahead 1).map Spanned.value)),
    _, ?_, ?_, fun unmarked => noted_resolve _ _ (unmarked _ (List.getElem_mem inside)), ?_⟩
  · rw [Negation.mark_getElem?, List.getElem?_eq_getElem inside, next, Option.map_some]
    congr 2
    funext kind
    exact Negation.resolve_congr fun _ => by rw [before, here]
  · intro follower
    have kind : Negation.kindAt yard.tokens k = some yard.tokens[k].value := by
      simp [Negation.kindAt, inside]
    rw [kind]
    exact negates_resolve _ _ _ _
  · rw [Yard.turn, token]

theorem Turned.turn {tokens : List Token} {k : Nat} {yard : Yard} (turned : Turned tokens k yard) :
    Turned tokens (k + 1) yard.turn := by
  obtain ⟨rfl, place, before, holds, notes⟩ := turned
  rcases Nat.lt_or_ge k yard.tokens.length with inside | behind
  · have here : yard.position = k := by omega
    obtain ⟨token, noted, marked, reads, minus, moved⟩ := turn_eq here inside before
    have longer : (Negation.mark yard.tokens).take (k + 1) =
        (Negation.mark yard.tokens).take k ++ [token] := by
      rw [List.take_add_one, marked]
      rfl
    have still : Holds { yard with notes := yard.notes ++ noted }
        (run {} ((Negation.mark yard.tokens).take k)).1
        (sent {} ((Negation.mark yard.tokens).take k)) := ⟨holds.stack, holds.output⟩
    obtain ⟨added, grown, step⟩ := still.place_notes token
    have placed := still.place token
    rw [← run_snoc, ← sent_snoc, ← longer] at placed
    rw [moved]
    refine ⟨place_tokens _ _, ?_, ?_, ⟨placed.stack, placed.output⟩, ?_⟩
    · simp only [here]
      omega
    · intro next
      simp only [here, Negation.kindBefore]
      exact reads next
    · intro unmarked
      dsimp only
      rw [grown, notes unmarked, minus unmarked, longer, logged_snoc, step, List.append_assoc]
  · have ended : yard.ahead 0 = none := by
      rw [Yard.ahead, List.getElem?_eq_none_iff]
      omega
    have whole : (Negation.mark yard.tokens).take (k + 1) = (Negation.mark yard.tokens).take k := by
      have length := Negation.mark_length yard.tokens
      rw [List.take_of_length_le (by omega), List.take_of_length_le (by omega)]
    have stays : yard.turn = yard := by rw [Yard.turn, ended]
    rw [stays]
    exact ⟨rfl, by omega, before, whole ▸ holds, whole ▸ notes⟩

theorem start_turned (tokens : List Token) : Turned tokens 0 { tokens } :=
  ⟨rfl, (Nat.zero_min _).symm, fun _ => rfl, ⟨rfl, rfl⟩, fun _ => rfl⟩

theorem turns_turned (tokens : List Token) (k : Nat) :
    Turned tokens k (Yard.turns { tokens } k) := by
  induction k with
  | zero => exact start_turned tokens
  | succ k ih => exact ih.turn

end Turns

/-- A yard converts as the layers do, and finds the same parenthesis without a partner. -/
theorem convert_eq (tokens : List Token) : Yard.convert tokens = parse tokens := by
  have holds := (turns_turned tokens tokens.length).holds
  rw [List.take_of_length_le (Nat.le_of_eq (Negation.mark_length tokens))] at holds
  rw [Yard.convert]
  simp only [holds.stack, holds.output]
  cases groups : (run {} (Negation.mark tokens)).1.groups with
  | nil =>
      have final : (run {} (Negation.mark tokens)).1 =
          ⟨(run {} (Negation.mark tokens)).1.waiting, []⟩ := congrArg (Stack.mk _) groups
      rw [parse_drained groups, final, finish_pile]
      rfl
  | cons group outer =>
      have final : (run {} (Negation.mark tokens)).1 =
          ⟨(run {} (Negation.mark tokens)).1.waiting, group :: outer⟩ := congrArg (Stack.mk _) groups
      rw [parse_of_open groups, final, finish_pile, pile_group]
      rfl

/-- Tokens that are not marked yet are logged by a yard as they are by the layers. -/
theorem log_eq {tokens : List Token} (unmarked : Unmarked tokens) :
    Yard.log tokens = Trace.ofTokens tokens := by
  have notes := (turns_turned tokens tokens.length).notes unmarked
  rwa [List.take_of_length_le (Nat.le_of_eq (Negation.mark_length tokens))] at notes

-- Scanning marks no minus, so the log of a text is that of a yard as well.
theorem trace_eq (mode : Mode) (text : List Char) :
    trace mode text = Trace.ofPieces mode (Cursor.ofText text).pieces ++
      match scan mode text with
      | .ok tokens => Yard.log tokens
      | .error _ => [] := by
  rw [trace]
  cases scanned : scan mode text with
  | error errors => rfl
  | ok tokens =>
      have tokenizes : Tokenizes text tokens := tokenizes_iff.mpr (scan_eq_ok scanned)
      have unmarked : Unmarked tokens := fun token member =>
        (tokenizes.lexical token member).ne_negate
      simp only [log_eq unmarked]

end Rpn.Shunting
