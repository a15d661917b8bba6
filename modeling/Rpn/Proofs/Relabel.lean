import Rpn.Proofs.Marking
import Rpn.Shunting
/-!
Places are carried along and never looked at. Whatever a map does to the places of the tokens, it
does to the places of the symbols and of the error, and to nothing else.
-/
namespace Rpn

namespace Spanned
variable {α β : Type}

def relabel (move : Span → Span) (item : Spanned α) : Spanned α := ⟨item.value, move item.span⟩

@[simp] theorem relabel_value (move : Span → Span) (item : Spanned α) :
    (item.relabel move).value = item.value := rfl

@[simp] theorem relabel_span (move : Span → Span) (item : Spanned α) :
    (item.relabel move).span = move item.span := rfl

theorem relabel_map (move : Span → Span) (read : α → β) (item : Spanned α) :
    (item.relabel move).map read = (item.map read).relabel move := rfl

end Spanned

namespace Negation

theorem markBetween_relabel (move : Span → Span) (before after : Option Kind) (tokens : List Token) :
    markBetween before after (tokens.map (Spanned.relabel move)) =
      (markBetween before after tokens).map (Spanned.relabel move) := by
  induction tokens generalizing before with
  | nil => rfl
  | cons token rest ih =>
      have next : nextKind after (rest.map (Spanned.relabel move)) = nextKind after rest := by
        cases rest <;> rfl
      simp only [List.map_cons, markBetween, Spanned.relabel_value, ih, next, Spanned.relabel_map]

theorem markFrom_relabel (move : Span → Span) (before : Option Kind) (tokens : List Token) :
    markFrom before (tokens.map (Spanned.relabel move)) =
      (markFrom before tokens).map (Spanned.relabel move) := by
  rw [← markBetween_none, ← markBetween_none, markBetween_relabel]

theorem mark_relabel (move : Span → Span) (tokens : List Token) :
    mark (tokens.map (Spanned.relabel move)) = (mark tokens).map (Spanned.relabel move) :=
  markFrom_relabel move none tokens

end Negation

namespace Shunting

def Group.relabel (move : Span → Span) (group : Group) : Group :=
  ⟨group.paren.relabel move, group.outside.map (Spanned.relabel move)⟩

def Stack.relabel (move : Span → Span) (stack : Stack) : Stack :=
  ⟨stack.waiting.map (Spanned.relabel move), stack.groups.map (Group.relabel move)⟩

def Action.relabel (move : Span → Span) : Action → Action
  | .operand number => .operand (number.relabel move)
  | .negation place => .negation (move place)
  | .yield op => .yield (op.relabel move)
  | .hold op => .hold (op.relabel move)
  | .release op => .release (op.relabel move)
  | .unmatched place => .unmatched (move place)

theorem symbol?_relabel (move : Span → Span) (action : Action) :
    (action.relabel move).symbol? = action.symbol?.map (Spanned.relabel move) := by
  cases action <;> rfl

theorem symbols_relabel (move : Span → Span) (actions : List Action) :
    (actions.map (Action.relabel move)).filterMap Action.symbol? =
      (actions.filterMap Action.symbol?).map (Spanned.relabel move) := by
  have same : Action.symbol? ∘ Action.relabel move =
      fun action => action.symbol?.map (Spanned.relabel move) := by
    funext action
    exact symbol?_relabel move action
  rw [List.filterMap_map, List.map_filterMap, same]

theorem released_relabel (move : Span → Span) (stack : Stack) :
    (stack.relabel move).released = stack.released.map (Action.relabel move) := by
  simp [Stack.released, Stack.relabel, Action.relabel, Function.comp_def]

theorem hold_relabel (move : Span → Span) (stack : Stack) (op : Spanned Operator) :
    (stack.relabel move).hold (op.relabel move) =
      ((stack.hold op).1.relabel move, (stack.hold op).2.map (Action.relabel move)) := by
  have yields : Stack.yieldsTo (op.relabel move) ∘ Spanned.relabel move = Stack.yieldsTo op := rfl
  have arrival : Action.ofArrival (op.relabel move) =
      (Action.ofArrival op).map (Action.relabel move) := by
    obtain ⟨op, place⟩ := op
    cases op <;> rfl
  simp [Stack.hold, Stack.relabel, List.takeWhile_map, List.dropWhile_map, yields, arrival,
    Action.relabel, Function.comp_def]

theorem closeGroup_relabel (move : Span → Span) (stack : Stack) (place : Span) :
    (stack.relabel move).closeGroup (move place) =
      ((stack.closeGroup place).1.relabel move,
        (stack.closeGroup place).2.map (Action.relabel move)) := by
  have released := released_relabel move stack
  obtain ⟨waiting, groups⟩ := stack
  rcases groups with _ | ⟨⟨⟨side, start⟩, outside⟩, groups⟩
  · simp only [Stack.closeGroup, Stack.relabel, List.map_nil] at released ⊢
    simp [released, Group.relabel, Spanned.relabel, Action.relabel]
  · cases side <;>
      simp only [Stack.closeGroup, Stack.relabel, List.map_cons, Group.relabel,
        Spanned.relabel] at released ⊢ <;>
      simp [released, Action.relabel]

theorem step_relabel (move : Span → Span) (stack : Stack) (token : Token) :
    step (stack.relabel move) (token.relabel move) =
      ((step stack token).1.relabel move, (step stack token).2.map (Action.relabel move)) := by
  obtain ⟨kind, place⟩ := token
  rcases kind with lexeme | op | side
  · rfl
  · exact hold_relabel move stack ⟨op, place⟩
  · cases side with
    | opening => rfl
    | closing => exact closeGroup_relabel move stack place

theorem run_relabel (move : Span → Span) (stack : Stack) (tokens : List Token) :
    run (stack.relabel move) (tokens.map (Spanned.relabel move)) =
      ((run stack tokens).1.relabel move, (run stack tokens).2.map (Action.relabel move)) := by
  induction tokens generalizing stack with
  | nil => rfl
  | cons token rest ih => simp only [List.map_cons, run, step_relabel, ih, List.map_append]

end Shunting

theorem outline_relabel (move : Span → Span) (tokens : List Token) :
    outline (tokens.map (Spanned.relabel move)) = outline tokens := by
  rw [outline, List.map_map]
  rfl

/-- The conversion of relabelled tokens is the relabelled conversion. -/
theorem parse_relabel (move : Span → Span) (tokens : List Token) :
    parse (tokens.map (Spanned.relabel move)) =
      match parse tokens with
      | .ok symbols => .ok (symbols.map (Spanned.relabel move))
      | .error error => .error (error.relabel move) := by
  have ran := Shunting.run_relabel move {} (Negation.mark tokens)
  have empty : Shunting.Stack.relabel move {} = {} := rfl
  rw [empty] at ran
  simp only [parse, Negation.mark_relabel, ran, Shunting.finish]
  cases groups : (Shunting.run {} (Negation.mark tokens)).1.groups with
  | nil =>
      simp only [Shunting.Stack.relabel, groups, List.map_nil]
      have released := Shunting.released_relabel move (Shunting.run {} (Negation.mark tokens)).1
      simp only [Shunting.Stack.relabel, groups, List.map_nil] at released
      rw [released, ← List.map_append, Shunting.symbols_relabel]
  | cons group groups =>
      simp only [Shunting.Stack.relabel, groups, List.map_cons, Shunting.Group.relabel,
        Spanned.relabel_map]

end Rpn
