import Rpn.Proofs.Layers
import Rpn.Proofs.Verdict
/-!
What lies below a group. Tokens that never close more groups than they open do not touch the groups
that were open before them, so a whole group leaves the stack as it found it and sends out what its
tokens send out alone. What goes out comes from the tokens or was waiting.
-/
namespace Rpn.Shunting

open Brackets
open scoped List

/-- The symbols that go out up to the last token. -/
def sent (stack : Stack) (tokens : List Token) : Postfix :=
  (run stack tokens).2.filterMap Action.symbol?

/-- These symbols and those that then wait in the innermost group. -/
def drained (stack : Stack) (tokens : List Token) : Postfix :=
  sent stack tokens ++ (run stack tokens).1.waiting.map written

section Appending
variable (stack : Stack) (front back : List Token)

theorem run_append_stack : (run stack (front ++ back)).1 = (run (run stack front).1 back).1 := by
  rw [run_append]

theorem sent_append :
    sent stack (front ++ back) = sent stack front ++ sent (run stack front).1 back := by
  rw [sent, run_append, List.filterMap_append, sent, sent]

theorem sent_snoc (token : Token) : sent stack (front ++ [token]) =
    sent stack front ++ (step (run stack front).1 token).2.filterMap Action.symbol? := by
  rw [sent_append]
  simp [sent, run]

theorem drained_append :
    drained stack (front ++ back) = sent stack front ++ drained (run stack front).1 back := by
  rw [drained, drained, sent_append, run_append_stack, List.append_assoc]

theorem parse_drained {tokens : List Token}
    (closed : (run {} (Negation.mark tokens)).1.groups = []) :
    parse tokens = .ok (drained {} (Negation.mark tokens)) := by
  rw [parse_of_closed closed, List.filterMap_append, symbols_released]
  rfl

end Appending

section Frame

/-- The stack inside the groups `outer`. -/
def Stack.within (stack : Stack) (outer : List Group) : Stack :=
  { stack with groups := stack.groups ++ outer }

/-- A token that closes no group around the stack works on the stack alone. -/
theorem step_within {stack : Stack} {token : Token} {level : Nat} (opened : Opened stack)
    (entered : enter stack.groups.length token.value.side? = some level) :
    Opened (step stack token).1 ∧ (step stack token).1.groups.length = level ∧
      ∀ outer, step (stack.within outer) token =
        ((step stack token).1.within outer, (step stack token).2) := by
  obtain ⟨kind, place⟩ := token
  rcases kind with lexeme | op | side
  · exact ⟨opened, Option.some.inj entered, fun outer => rfl⟩
  · exact ⟨opened, Option.some.inj entered, fun outer => rfl⟩
  · cases side with
    | opening =>
        refine ⟨?_, Option.some.inj entered, fun outer => rfl⟩
        intro group member
        rcases List.mem_cons.mp member with rfl | old
        · rfl
        · exact opened group old
    | closing =>
        obtain ⟨waiting, groups⟩ := stack
        rcases groups with _ | ⟨⟨⟨side, start⟩, outside⟩, groups⟩
        · contradiction
        · obtain rfl : side = .opening := opened _ List.mem_cons_self
          refine ⟨?_, Option.some.inj entered, fun outer => rfl⟩
          exact fun group member => opened group (List.mem_cons_of_mem _ member)

theorem run_within {stack : Stack} {tokens : List Token} {level : Nat} (opened : Opened stack)
    (read : depth? stack.groups.length (outline tokens) = some level) :
    (run stack tokens).1.groups.length = level ∧
      ∀ outer, run (stack.within outer) tokens =
        ((run stack tokens).1.within outer, (run stack tokens).2) := by
  induction tokens generalizing stack with
  | nil => exact ⟨Option.some.inj read, fun outer => rfl⟩
  | cons token rest ih =>
      obtain ⟨inner, entered, tail⟩ := Option.bind_eq_some_iff.mp read
      obtain ⟨still, reached, alone⟩ := step_within opened entered
      rw [← reached] at tail
      obtain ⟨final, later⟩ := ih still tail
      refine ⟨final, ?_⟩
      intro outer
      rw [run, alone outer, later outer, run]

theorem opened_empty : Opened {} := by
  intro group member
  contradiction

theorem run_balanced {tokens : List Token} (balanced : Balanced (outline tokens)) :
    (run {} tokens).1.groups = [] ∧
      ∀ outer, run { groups := outer } tokens =
        ({ waiting := (run {} tokens).1.waiting, groups := outer }, (run {} tokens).2) := by
  obtain ⟨level, alone⟩ := run_within opened_empty (balanced.depth 0)
  have closed := List.eq_nil_of_length_eq_zero level
  refine ⟨closed, ?_⟩
  intro outer
  have framed := alone outer
  simpa [Stack.within, closed] using framed

end Frame

section Passing

/-- The tokens send out `out` and leave every stack as it was. -/
def Passes (tokens : List Token) (out : Postfix) : Prop :=
  ∀ stack, (run stack tokens).1 = stack ∧ sent stack tokens = out

theorem passes_number (lexeme : List Char) (place : Span) :
    Passes [⟨.number lexeme, place⟩] [⟨.number lexeme, place⟩] :=
  fun _ => ⟨rfl, rfl⟩

theorem passes_group {inner : List Token} (balanced : Balanced (outline inner))
    (start finish : Span) :
    Passes (⟨.paren .opening, start⟩ :: (inner ++ [⟨.paren .closing, finish⟩])) (drained {} inner) := by
  intro stack
  have inside := (run_balanced balanced).2 (⟨⟨.opening, start⟩, stack.waiting⟩ :: stack.groups)
  have opened : step stack ⟨.paren .opening, start⟩ = (stack.openGroup start, []) := rfl
  have entered : run (stack.openGroup start) inner = _ := inside
  constructor
  · rw [run, opened, run_append, entered]
    rfl
  · rw [sent, run, opened, run_append, entered]
    simp [run, step, Stack.closeGroup, symbols_released, drained, sent]

theorem Passes.run {middle : List Token} {out : Postfix} (passes : Passes middle out) (stack : Stack)
    (front back : List Token) :
    (run stack (front ++ (middle ++ back))).1 = (run (run stack front).1 back).1 ∧
      drained stack (front ++ (middle ++ back)) =
        sent stack front ++ out ++ drained (run stack front).1 back := by
  obtain ⟨same, block⟩ := passes (Shunting.run stack front).1
  constructor
  · rw [run_append_stack, run_append_stack, same]
  · rw [drained_append, drained_append, same, block, List.append_assoc]

end Passing

section Conservation

/-- The symbols of the operators that wait in any group. -/
def Stack.held (stack : Stack) : Postfix := stack.layers.flatten.map written

theorem symbols_cons (token : Token) (rest : List Token) : (token :: rest).filterMap Token.symbol? =
    token.symbol?.toList ++ rest.filterMap Token.symbol? := by
  rw [List.filterMap_cons]
  cases token.symbol? <;> rfl

theorem step_conserves (stack : Stack) (token : Token) :
    ((step stack token).2.filterMap Action.symbol? ++ (step stack token).1.held).Perm
      (stack.held ++ token.symbol?.toList) := by
  obtain ⟨kind, place⟩ := token
  obtain ⟨waiting, groups⟩ := stack
  rcases kind with lexeme | op | side
  · exact Move.number.perm
  · have move := (@Move.operator waiting (groups.map Group.outside) op place).perm
    rw [step, symbols_hold]
    exact move
  · cases side with
    | opening => exact Move.opening.perm
    | closing =>
        have unmatched : [Action.unmatched place].filterMap Action.symbol? = [] := rfl
        rcases groups with _ | ⟨⟨⟨side, start⟩, outside⟩, groups⟩
        · simp [step, Stack.closeGroup, symbols_released, Stack.held, Stack.layers, unmatched,
            Token.symbol?, Kind.symbol?]
        · cases side <;>
            simp [step, Stack.closeGroup, symbols_released, Stack.held, Stack.layers, unmatched,
              Token.symbol?, Kind.symbol?]

/-- Whether or not the groups match, every symbol that arrives goes out or is still waiting. -/
theorem run_conserves (stack : Stack) (tokens : List Token) :
    (sent stack tokens ++ (run stack tokens).1.held).Perm
      (stack.held ++ tokens.filterMap Token.symbol?) := by
  induction tokens generalizing stack with
  | nil => simp [sent, run]
  | cons token rest ih =>
      calc sent stack (token :: rest) ++ (run stack (token :: rest)).1.held
        _ = (step stack token).2.filterMap Action.symbol? ++
              (sent (step stack token).1 rest ++ (run (step stack token).1 rest).1.held) := by
            rw [sent, run, List.filterMap_append, List.append_assoc, sent]
        _ ~ (step stack token).2.filterMap Action.symbol? ++
              ((step stack token).1.held ++ rest.filterMap Token.symbol?) :=
            (ih (step stack token).1).append_left _
        _ = ((step stack token).2.filterMap Action.symbol? ++ (step stack token).1.held) ++
              rest.filterMap Token.symbol? := (List.append_assoc _ _ _).symm
        _ ~ (stack.held ++ token.symbol?.toList) ++ rest.filterMap Token.symbol? :=
            (step_conserves stack token).append_right _
        _ = stack.held ++ (token :: rest).filterMap Token.symbol? := by
            rw [List.append_assoc, symbols_cons]

end Conservation

end Rpn.Shunting
