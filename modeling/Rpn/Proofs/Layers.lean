import Rpn.Shunting
/-!
A conversion that succeeds, step by step. The operators that wait stand in layers, one for every open
group and one for the whole, the innermost first. What a token sends out and which layers it leaves
depends on the layers alone, and every operator and number goes out once.
-/
namespace Rpn

def Token.symbol? (token : Token) : Option (Spanned Symbol) :=
  token.value.symbol?.map fun symbol => ⟨symbol, token.span⟩

namespace Shunting

abbrev Layer := List (Spanned Operator)

def Stack.layers (stack : Stack) : List Layer := stack.waiting :: stack.groups.map Group.outside

def written (op : Spanned Operator) : Spanned Symbol := op.map .operator

inductive Move : List Layer → Token → Postfix → List Layer → Prop where
  | number {layers lexeme place} :
      Move layers ⟨.number lexeme, place⟩ [⟨.number lexeme, place⟩] layers
  | operator {waiting outer op place} :
      Move (waiting :: outer) ⟨.operator op, place⟩
        ((waiting.takeWhile (Stack.yieldsTo ⟨op, place⟩)).map written)
        ((⟨op, place⟩ :: waiting.dropWhile (Stack.yieldsTo ⟨op, place⟩)) :: outer)
  | opening {layers place} : Move layers ⟨.paren .opening, place⟩ [] ([] :: layers)
  | closing {waiting around outer place} :
      Move (waiting :: around :: outer) ⟨.paren .closing, place⟩ (waiting.map written)
        (around :: outer)

/-- From these layers on, the tokens send out exactly these symbols, and every group is closed. -/
inductive Runs : List Layer → List Token → Postfix → Prop where
  | done {waiting} : Runs [waiting] [] (waiting.map written)
  | step {layers next token rest sent out} (move : Move layers token sent next)
      (tail : Runs next rest out) : Runs layers (token :: rest) (sent ++ out)

def Opened (stack : Stack) : Prop := ∀ group ∈ stack.groups, group.paren.value = .opening

/-- A closing parenthesis is among those left over. -/
def Stuck (stack : Stack) : Prop := ∃ group ∈ stack.groups, group.paren.value = .closing

theorem step_stuck {stack : Stack} (stuck : Stuck stack) (token : Token) :
    Stuck (step stack token).1 := by
  obtain ⟨group, member, closing⟩ := stuck
  obtain ⟨kind, place⟩ := token
  rcases kind with lexeme | op | side
  · exact ⟨group, member, closing⟩
  · exact ⟨group, member, closing⟩
  · cases side with
    | opening => exact ⟨group, List.mem_cons_of_mem _ member, closing⟩
    | closing =>
        obtain ⟨waiting, groups⟩ := stack
        rcases groups with _ | ⟨⟨⟨side, start⟩, outside⟩, groups⟩
        · simp at member
        · cases side with
          | closing => exact ⟨_, List.mem_cons_self, rfl⟩
          | opening =>
              rcases List.mem_cons.mp member with same | old
              · rw [same] at closing
                contradiction
              · exact ⟨group, old, closing⟩

theorem run_stuck {stack : Stack} (stuck : Stuck stack) (tokens : List Token) :
    Stuck (run stack tokens).1 := by
  induction tokens generalizing stack with
  | nil => exact stuck
  | cons token rest ih => exact ih (step_stuck stuck token)

theorem symbols_ofArrival (op : Spanned Operator) :
    (Action.ofArrival op).filterMap Action.symbol? = [] := by
  obtain ⟨op, place⟩ := op
  cases op <;> rfl

theorem symbols_released (stack : Stack) :
    stack.released.filterMap Action.symbol? = stack.waiting.map written := by
  rw [Stack.released, List.filterMap_map]
  exact congrFun List.filterMap_eq_map stack.waiting

theorem symbols_yields (ops : Layer) :
    (ops.map Action.yield).filterMap Action.symbol? = ops.map written := by
  rw [List.filterMap_map]
  exact congrFun List.filterMap_eq_map ops

theorem symbols_hold (stack : Stack) (op : Spanned Operator) :
    (stack.hold op).2.filterMap Action.symbol? =
      (stack.waiting.takeWhile (Stack.yieldsTo op)).map written := by
  have held : [Action.hold op].filterMap Action.symbol? = [] := rfl
  simp only [Stack.hold, List.filterMap_append, symbols_ofArrival, symbols_yields, held,
    List.nil_append, List.append_nil]

theorem step_move {stack : Stack} (opened : Opened stack) (token : Token) :
    (Move stack.layers token ((step stack token).2.filterMap Action.symbol?)
      (step stack token).1.layers ∧ Opened (step stack token).1) ∨ Stuck (step stack token).1 := by
  obtain ⟨kind, place⟩ := token
  rcases kind with lexeme | op | side
  · exact .inl ⟨.number, opened⟩
  · left
    refine ⟨?_, opened⟩
    simp only [step, symbols_hold]
    exact .operator
  · cases side with
    | opening =>
        left
        refine ⟨.opening, ?_⟩
        intro group member
        rcases List.mem_cons.mp member with same | old
        · rw [same]
        · exact opened group old
    | closing =>
        obtain ⟨waiting, groups⟩ := stack
        rcases groups with _ | ⟨⟨⟨side, start⟩, outside⟩, groups⟩
        · exact .inr ⟨_, List.mem_cons_self, rfl⟩
        · obtain rfl : side = .opening := opened _ List.mem_cons_self
          left
          refine ⟨?_, fun group member => opened group (List.mem_cons_of_mem _ member)⟩
          simp only [step, Stack.closeGroup, symbols_released]
          exact .closing

theorem run_runs {stack : Stack} (opened : Opened stack) (tokens : List Token)
    (closed : (run stack tokens).1.groups = []) :
    Runs stack.layers tokens
      (((run stack tokens).2 ++ (run stack tokens).1.released).filterMap Action.symbol?) := by
  induction tokens generalizing stack with
  | nil =>
      obtain ⟨waiting, groups⟩ := stack
      obtain rfl : groups = [] := closed
      simp only [run, List.nil_append, symbols_released]
      exact .done
  | cons token rest ih =>
      rcases step_move opened token with ⟨move, still⟩ | stuck
      · simp only [run, List.append_assoc]
        rw [List.filterMap_append]
        exact .step move (ih still closed)
      · obtain ⟨group, member, _⟩ := run_stuck stuck rest
        rw [run] at closed
        rw [closed] at member
        simp at member

theorem parse_of_closed {tokens : List Token}
    (closed : (run {} (Negation.mark tokens)).1.groups = []) :
    parse tokens = .ok (((run {} (Negation.mark tokens)).2 ++
      (run {} (Negation.mark tokens)).1.released).filterMap Action.symbol?) := by
  simp only [parse, finish, closed]

theorem parse_of_open {tokens : List Token} {group : Group} {groups : List Group}
    (left : (run {} (Negation.mark tokens)).1.groups = group :: groups) :
    parse tokens = .error (group.paren.map ParenError.ofSide) := by
  simp only [parse, finish, left]

theorem closed_of_parse {tokens : List Token} {symbols : Postfix}
    (converted : parse tokens = .ok symbols) : (run {} (Negation.mark tokens)).1.groups = [] := by
  cases closed : (run {} (Negation.mark tokens)).1.groups with
  | nil => rfl
  | cons group groups =>
      rw [parse_of_open closed] at converted
      contradiction

theorem parse_runs {tokens : List Token} {symbols : Postfix}
    (converted : parse tokens = .ok symbols) : Runs [[]] (Negation.mark tokens) symbols := by
  have closed := closed_of_parse converted
  rw [parse_of_closed closed, Except.ok.injEq] at converted
  rw [← converted]
  exact run_runs (by intro group member; simp at member) _ closed

section Conservation
variable {layers next : List Layer} {token : Token} {tokens : List Token} {sent out : Postfix}

theorem Move.perm (move : Move layers token sent next) :
    (sent ++ next.flatten.map written).Perm (layers.flatten.map written ++ token.symbol?.toList) := by
  cases move with
  | number => exact List.perm_append_comm
  | opening => simp [Token.symbol?, Kind.symbol?]
  | closing => simp [Token.symbol?, Kind.symbol?]
  | @operator waiting outer op place =>
      have whole := congrArg (List.map written)
        (List.takeWhile_append_dropWhile (p := Stack.yieldsTo ⟨op, place⟩) (l := waiting))
      rw [List.map_append] at whole
      have arrived : Token.symbol? ⟨.operator op, place⟩ = some (written ⟨op, place⟩) := rfl
      simp only [List.flatten_cons, List.map_append, List.map_cons, List.cons_append, arrived,
        Option.toList_some, ← whole, List.append_assoc]
      apply List.Perm.append_left
      rw [← List.append_assoc]
      exact (List.perm_append_singleton _ _).symm

theorem Runs.perm (runs : Runs layers tokens out) :
    out.Perm (layers.flatten.map written ++ tokens.filterMap Token.symbol?) := by
  induction runs with
  | done => simp
  | @step layers next token rest sent out move tail ih =>
      have first := move.perm.append_right (rest.filterMap Token.symbol?)
      have second := ih.append_left sent
      rw [← List.append_assoc] at second
      refine (second.trans first).trans (List.Perm.of_eq ?_)
      rw [List.append_assoc, List.filterMap_cons]
      cases token.symbol? <;> rfl

/-- Conversion keeps the symbols of the marked tokens and only moves them. -/
theorem parse_perm {symbols : Postfix} (converted : parse tokens = .ok symbols) :
    symbols.Perm ((Negation.mark tokens).filterMap Token.symbol?) := by
  have perm := (parse_runs converted).perm
  rwa [List.flatten_singleton, List.map_nil, List.nil_append] at perm

-- What waits goes out from the innermost layer to the outermost, the latest first.
theorem Move.keeps_order (move : Move layers token sent next) :
    (layers.flatten.map written).Sublist (sent ++ next.flatten.map written) := by
  cases move with
  | number => exact List.sublist_cons_self _ _
  | opening => simp
  | closing => simp
  | @operator waiting outer op place =>
      have whole := congrArg (List.map written)
        (List.takeWhile_append_dropWhile (p := Stack.yieldsTo ⟨op, place⟩) (l := waiting))
      rw [List.map_append] at whole
      simp only [List.flatten_cons, List.map_append, List.map_cons, List.cons_append, ← whole,
        List.append_assoc]
      exact (List.sublist_cons_self _ _).append_left _

theorem Runs.keeps_order (runs : Runs layers tokens out) :
    (layers.flatten.map written).Sublist out := by
  induction runs with
  | done => simp
  | step move tail ih => exact move.keeps_order.trans (ih.append_left _)

end Conservation

end Shunting

end Rpn
