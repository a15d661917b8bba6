import Rpn.Proofs.Layers
import Rpn.Proofs.Spelling
/-!
What a run makes of the tokens of a tree. It sends out the postorder of the tree but for some operators
at its end, and leaves these on top of all that waited before. A chain comes apart at its first operator
of lowest rank: that operator sends out everything left over from the operators in front of it, and
what stands behind it runs as a chain of its own.
-/
namespace Rpn.Shunting

/-- The run sends out all of `tree` but the operators `pending`, which are left waiting. -/
structure Leaves (stack : Stack) (tokens : List Token) (tree : Expr) (pending : Layer) : Prop where
  left : (run stack tokens).1 = { stack with waiting := pending ++ stack.waiting }
  sent : (run stack tokens).2.filterMap Action.symbol? ++ pending.map written = tree.postorder

section Steps
variable {stack : Stack} {tokens later : List Token} {tree right : Expr} {pending rest : Layer}

theorem leaves_number (stack : Stack) (lexeme : List Char) (place : Span) :
    Leaves stack [⟨.number lexeme, place⟩] (.number ⟨lexeme, place⟩) [] where
  left := rfl
  sent := rfl

-- An operator sends out what ranks higher on top and is left waiting on the rest.
theorem step_operator {op : Operator} (place : Span) (split : stack.waiting = pending ++ rest)
    (higher : ∀ other ∈ pending, op.rank < other.value.rank)
    (low : ∀ other ∈ rest, other.value.rank ≤ op.rank) :
    (step stack ⟨.operator op, place⟩).1 = { stack with waiting := ⟨op, place⟩ :: rest } ∧
      (step stack ⟨.operator op, place⟩).2.filterMap Action.symbol? = pending.map written := by
  have yields : ∀ other ∈ pending, Stack.yieldsTo ⟨op, place⟩ other = true := by
    intro other member
    exact decide_eq_true (higher other member)
  have stays : rest.takeWhile (Stack.yieldsTo ⟨op, place⟩) = [] ∧
      rest.dropWhile (Stack.yieldsTo ⟨op, place⟩) = rest := by
    cases rest with
    | nil => exact ⟨rfl, rfl⟩
    | cons top rest =>
        have keeps : ¬ Stack.yieldsTo ⟨op, place⟩ top = true := by
          simpa [Stack.yieldsTo] using low top List.mem_cons_self
        exact ⟨List.takeWhile_cons_of_neg keeps, List.dropWhile_cons_of_neg keeps⟩
  constructor
  · simp only [step, Stack.hold, split, List.dropWhile_append_of_pos yields, stays.2]
  · simp only [step, symbols_hold, split, List.takeWhile_append_of_pos yields, stays.1,
      List.append_nil]

theorem rank_le_negate (op : Operator) : op.rank ≤ Operator.negate.rank := by
  rcases op with op | _
  · cases op <;> decide
  · exact Nat.le_refl _

theorem rank_lt_negate (op : Binary) : (Operator.binary op).rank < Operator.negate.rank := by
  cases op <;> decide

theorem Leaves.negate (place : Span)
    (leaves : Leaves { stack with waiting := ⟨.negate, place⟩ :: stack.waiting } tokens tree []) :
    Leaves stack (⟨.operator .negate, place⟩ :: tokens) (.negate place tree)
      [⟨.negate, place⟩] := by
  have split : stack.waiting = [] ++ stack.waiting := rfl
  obtain ⟨state, actions⟩ := step_operator place split nofun fun other _ => rank_le_negate other.value
  have sent := leaves.sent
  rw [List.map_nil, List.append_nil] at sent
  constructor
  · rw [run, state]
    exact leaves.left
  · rw [run, state, List.filterMap_append, actions, sent]
    rfl

theorem Leaves.group (start finish : Span)
    (leaves : Leaves (stack.openGroup start) tokens tree pending) :
    Leaves stack (⟨.paren .opening, start⟩ :: (tokens ++ [⟨.paren .closing, finish⟩])) tree [] := by
  have opened : step stack ⟨.paren .opening, start⟩ = (stack.openGroup start, []) := rfl
  have inside : (run (stack.openGroup start) tokens).1 =
      { waiting := pending, groups := ⟨⟨.opening, start⟩, stack.waiting⟩ :: stack.groups } := by
    rw [leaves.left]
    simp [Stack.openGroup]
  constructor
  · rw [run, opened, run_append, inside]
    rfl
  · rw [run, opened, run_append, inside, ← leaves.sent]
    simp [run, step, Stack.closeGroup, symbols_released]

theorem Leaves.binary {op : Binary} {place : Span} (leaves : Leaves stack tokens tree pending)
    (higher : ∀ other ∈ pending, (Operator.binary op).rank < other.value.rank)
    (low : ∀ other ∈ stack.waiting, other.value.rank ≤ (Operator.binary op).rank)
    (behind : Leaves { stack with waiting := ⟨.binary op, place⟩ :: stack.waiting } later right rest) :
    Leaves stack (tokens ++ ⟨.operator (.binary op), place⟩ :: later) (.binary ⟨op, place⟩ tree right)
      (rest ++ [⟨.binary op, place⟩]) := by
  have split : (run stack tokens).1.waiting = pending ++ stack.waiting := by
    rw [leaves.left]
  have groups : (run stack tokens).1.groups = stack.groups := by
    rw [leaves.left]
  obtain ⟨state, actions⟩ := step_operator place split higher low
  rw [groups] at state
  constructor
  · rw [run_append, run, state, behind.left]
    simp
  · rw [run_append, run, state]
    simp only [List.filterMap_append, List.map_append, actions]
    rw [← List.append_assoc _ (pending.map written), leaves.sent, List.append_assoc tree.postorder,
      ← List.append_assoc _ (rest.map written), behind.sent, ← List.append_assoc]
    rfl

end Steps

/-- Wherever they stand, the tokens leave nothing of the tree but negations. -/
def Stands (tokens : List Token) (tree : Expr) : Prop :=
  ∀ stack, ∃ pending, Leaves stack tokens tree pending ∧ ∀ op ∈ pending, op.value = .negate

inductive Spells : List Token → Links → Prop where
  | done : Spells [] []
  | more {op place tokens tree rest links} (operand : Stands tokens tree)
      (later : Spells rest links) :
      Spells (⟨.operator (.binary op), place⟩ :: (tokens ++ rest)) ((⟨op, place⟩, tree) :: links)

theorem Spells.split {tokens : List Token} {before after : Links} {op : Binary} {place : Span}
    {tree : Expr} (spells : Spells tokens (before ++ (⟨op, place⟩, tree) :: after)) :
    ∃ front operand back, tokens = front ++ ⟨.operator (.binary op), place⟩ :: (operand ++ back) ∧
      Spells front before ∧ Stands operand tree ∧ Spells back after := by
  induction before generalizing tokens with
  | nil =>
      cases spells with
      | more operand later => exact ⟨[], _, _, rfl, .done, operand, later⟩
  | cons link before ih =>
      cases spells with
      | more operand later =>
          obtain ⟨front, inner, back, rfl, first, rest⟩ := ih later
          exact ⟨_, inner, back, by simp, .more operand first, rest⟩

/-- The operators left over are negations and operators of the chain. -/
def LeftOf (links : Links) (pending : Layer) : Prop :=
  ∀ op ∈ pending, op.value = .negate ∨ ∃ link ∈ links, op.value = .binary link.1.value

theorem LeftOf.above {links : Links} {pending : Layer} {op : Binary} (owed : LeftOf links pending)
    (higher : ∀ link ∈ links, op.rank < link.1.value.rank) :
    ∀ other ∈ pending, (Operator.binary op).rank < other.value.rank := by
  intro other member
  rcases owed other member with negation | ⟨link, inside, same⟩
  · rw [negation]
    exact rank_lt_negate op
  · rw [same]
    exact higher link inside

theorem LeftOf.joined {after : Links} {pending : Layer} (owed : LeftOf after pending)
    (before : Links) (op : Spanned Binary) (tree : Expr) :
    LeftOf (before ++ (op, tree) :: after) (pending ++ [⟨.binary op.value, op.span⟩]) := by
  intro other member
  rcases List.mem_append.mp member with late | here
  · rcases owed other late with negation | ⟨link, behind, same⟩
    · exact .inl negation
    · exact .inr ⟨link, List.mem_append_right _ (List.mem_cons_of_mem _ behind), same⟩
  · obtain rfl := List.mem_singleton.mp here
    exact .inr ⟨_, List.mem_append_cons_self, rfl⟩

-- By induction on the number of operators, the chain being divided at the one that goes out last. What
-- waits below the chain ranks no higher than its operators, so they leave it alone.
theorem Spells.leaves {tokens rest : List Token} {tree : Expr} {links : Links} {stack : Stack}
    (first : Stands tokens tree) (spells : Spells rest links)
    (low : ∀ op ∈ stack.waiting, ∀ link ∈ links,
      op.value.rank ≤ (Operator.binary link.1.value).rank) :
    ∃ pending, Leaves stack (tokens ++ rest) (links.tree tree) pending ∧ LeftOf links pending := by
  induction length : links.length using Nat.strongRecOn
    generalizing tokens rest tree links stack with
  | ind count ih =>
      subst length
      cases divided : links.cut with
      | none =>
          obtain rfl := Links.cut_eq_none divided
          cases spells
          obtain ⟨pending, leaves, negations⟩ := first stack
          rw [List.append_nil, Links.tree_nil]
          exact ⟨pending, leaves, fun op member => .inl (negations op member)⟩
      | some parts =>
          obtain ⟨before, ⟨⟨op, place⟩, operand⟩, after⟩ := parts
          obtain ⟨whole, higher, least⟩ := Links.cut_eq_some_iff.mp divided
          obtain ⟨fewerBefore, fewerAfter⟩ := Links.cut_shortens divided
          rw [Links.tree_divided tree divided]
          subst whole
          obtain ⟨front, inner, back, rfl, spellsBefore, stands, spellsAfter⟩ := spells.split
          have lowBefore : ∀ other ∈ stack.waiting, ∀ link ∈ before,
              other.value.rank ≤ (Operator.binary link.1.value).rank := by
            intro other member link inFront
            exact low other member link (List.mem_append_left _ inFront)
          have lowHere : ∀ other ∈ stack.waiting,
              other.value.rank ≤ (Operator.binary op).rank := by
            intro other member
            exact low other member _ List.mem_append_cons_self
          have lowAfter : ∀ other ∈ ({ stack with
              waiting := ⟨.binary op, place⟩ :: stack.waiting } : Stack).waiting, ∀ link ∈ after,
              other.value.rank ≤ (Operator.binary link.1.value).rank := by
            intro other member link behind
            rcases List.mem_cons.mp member with rfl | member
            · exact least link behind
            · exact Nat.le_trans (lowHere other member) (least link behind)
          obtain ⟨pending, left, owed⟩ := ih _ fewerBefore first spellsBefore lowBefore rfl
          obtain ⟨final, right, owedAfter⟩ := ih _ fewerAfter stands spellsAfter lowAfter rfl
          have joined := left.binary (owed.above higher) lowHere right
          rw [← List.append_assoc]
          exact ⟨_, joined, owedAfter.joined before ⟨op, place⟩ operand⟩

section Sentences

theorem stands_negate {tokens : List Token} {tree : Expr} (place : Span)
    (whole : ∀ stack, Leaves stack tokens tree []) :
    Stands (⟨.operator .negate, place⟩ :: tokens) (.negate place tree) := by
  intro stack
  refine ⟨_, Leaves.negate place (whole _), ?_⟩
  intro op member
  rw [List.mem_singleton.mp member]

theorem Spells.group {tokens rest : List Token} {tree : Expr} {links : Links}
    (first : Stands tokens tree) (spells : Spells rest links) (start finish : Span) (stack : Stack) :
    Leaves stack (⟨.paren .opening, start⟩ :: (tokens ++ (rest ++ [⟨.paren .closing, finish⟩])))
      (links.tree tree) [] := by
  have empty : ∀ op ∈ (stack.openGroup start).waiting, ∀ link ∈ links,
      op.value.rank ≤ (Operator.binary link.1.value).rank := nofun
  obtain ⟨pending, leaves, _⟩ := spells.leaves first empty
  rw [← List.append_assoc tokens]
  exact leaves.group start finish

mutual

theorem stands_operand (operand : Operand) (offset : Nat) :
    Stands (operand.tokens .negate offset) (operand.tree offset) := by
  cases operand with
  | number digits => exact fun stack => ⟨[], leaves_number stack _ _, nofun⟩
  | signed digits => exact fun stack => ⟨[], leaves_number stack _ _, nofun⟩
  | negated digits => exact stands_negate _ fun stack => leaves_number stack _ _
  | group first rest =>
      intro stack
      refine ⟨[], ?_, nofun⟩
      exact (spells_tail rest _).group (stands_operand first _) _ _ stack

theorem spells_tail (tail : Tail) (offset : Nat) :
    Spells (tail.tokens .negate offset) (tail.links offset) := by
  cases tail with
  | done => exact .done
  | more op operand rest => exact .more (stands_operand operand _) (spells_tail rest _)

end

theorem Leaves.parse {tokens : List Token} {tree : Expr} {pending : Layer}
    (leaves : Leaves {} (Negation.mark tokens) tree pending) :
    parse tokens = .ok tree.postorder := by
  have closed : (run {} (Negation.mark tokens)).1.groups = [] := by
    rw [leaves.left]
  rw [parse_of_closed closed, List.filterMap_append, symbols_released, ← leaves.sent, leaves.left,
    List.append_nil]

theorem parse_sentence (sentence : Sentence) :
    parse (sentence.tokens (.binary .sub)) = .ok sentence.tree.postorder := by
  have stands : ∃ tokens rest first links, sentence.tokens .negate = tokens ++ rest ∧
      sentence.tree = Links.tree first links ∧ Stands tokens first ∧ Spells rest links := by
    cases sentence with
    | chain first rest =>
        exact ⟨_, _, _, _, rfl, rfl, stands_operand first 0, spells_tail rest _⟩
    | negated first inner rest =>
        have group : ∀ stack, Leaves stack ((Operand.group first inner).tokens .negate 1)
            ((Operand.group first inner).tree 1) [] := fun stack =>
          (spells_tail inner _).group (stands_operand first _) _ _ stack
        exact ⟨_, _, _, _, rfl, rfl, stands_negate _ group, spells_tail rest _⟩
  obtain ⟨tokens, rest, first, links, written, tree, stands, spells⟩ := stands
  have empty : ∀ op ∈ ({} : Stack).waiting, ∀ link ∈ links,
      op.value.rank ≤ (Operator.binary link.1.value).rank := nofun
  obtain ⟨pending, leaves, _⟩ := spells.leaves stands empty
  rw [← written, ← sentence.mark_tokens] at leaves
  rw [leaves.parse, tree]

end Sentences

end Rpn.Shunting
