import Rpn.Proofs.Emission
/-!
What each token makes happen. A closing parenthesis is unmatched when nothing in front of it is left
for it to close. An operator that waits has nothing but whole groups behind it, and no operator of
lower rank among them. So it yields when an operator of lower rank arrives in its group, and it is
released when its group ends without one.
-/
namespace Rpn.Shunting

open Brackets

/-- What happens at each of the tokens. -/
def blocks (stack : Stack) : List Token → List (List Action)
  | [] => []
  | token :: rest => (step stack token).2 :: blocks (step stack token).1 rest

section Blocks
variable (stack : Stack) (tokens : List Token)

theorem blocks_flatten : (blocks stack tokens).flatten = (run stack tokens).2 := by
  induction tokens generalizing stack with
  | nil => rfl
  | cons token rest ih => rw [blocks, List.flatten_cons, ih, run]

theorem blocks_length : (blocks stack tokens).length = tokens.length := by
  induction tokens generalizing stack with
  | nil => rfl
  | cons token rest ih => rw [blocks, List.length_cons, ih, List.length_cons]

theorem blocks_getElem? (n : Nat) : (blocks stack tokens)[n]? =
    tokens[n]?.map fun token => (step (run stack (tokens.take n)).1 token).2 := by
  induction tokens generalizing stack n with
  | nil => rfl
  | cons token rest ih =>
      cases n with
      | zero => rfl
      | succ n => exact ih (step stack token).1 n

theorem mem_actions_iff (action : Action) : action ∈ (run stack tokens).2 ↔
    ∃ n token, tokens[n]? = some token ∧ action ∈ (step (run stack (tokens.take n)).1 token).2 := by
  rw [← blocks_flatten, List.mem_flatten]
  constructor
  · rintro ⟨block, listed, member⟩
    obtain ⟨n, found⟩ := List.mem_iff_getElem?.mp listed
    rw [blocks_getElem?] at found
    obtain ⟨token, here, rfl⟩ := Option.map_eq_some_iff.mp found
    exact ⟨n, token, here, member⟩
  · rintro ⟨n, token, here, member⟩
    refine ⟨_, List.mem_of_getElem? (i := n) ?_, member⟩
    rw [blocks_getElem?, here]
    rfl

end Blocks

section Closing
variable {tokens : List Token} {n : Nat} {place : Span}

-- Only what stands in front of a closing parenthesis can be its partner.
theorem Layout.closing_unmatched {entries : List (Nat × Spanned Side)}
    (layout : Layout tokens n entries) (found : tokens[n]? = some ⟨.paren .closing, place⟩)
    (barred : ∀ entry ∈ entries, entry.2.value = .closing) : Unmatched (outline tokens) n := by
  have here : (outline tokens)[n]? = some (some .closing) := by
    rw [outline_getElem?, found]
    rfl
  have alone : Balanced (stretch (outline tokens) (n + 1) (n + 1)) := by
    rw [stretch_self]
    exact .nil
  have grown : Layout tokens (n + 1) ((n, ⟨.closing, place⟩) :: entries) :=
    .left layout (Nat.lt_succ_self n) found alone fun _ => barred
  have free := (grown.unpaired_iff (Nat.lt_succ_self n) here).mp ⟨_, List.mem_cons_self, rfl⟩
  refine ⟨⟨.closing, here⟩, ?_⟩
  rintro other (pair | pair)
  · have both := here.symm.trans pair.opens
    simp at both
  · exact free other (Nat.lt_succ_of_lt pair.ordered) (.inr pair)

/-- A closing parenthesis releases what waits in its group. It is noted when it has no partner. -/
theorem closeGroup_actions (found : tokens[n]? = some ⟨.paren .closing, place⟩) :
    (Unmatched (outline tokens) n ∧ ((run {} (tokens.take n)).1.closeGroup place).2 =
      (run {} (tokens.take n)).1.released ++ [.unmatched place]) ∨
    (¬ Unmatched (outline tokens) n ∧ ((run {} (tokens.take n)).1.closeGroup place).2 =
      (run {} (tokens.take n)).1.released) := by
  have bound := (List.getElem?_eq_some_iff.mp found).1
  obtain ⟨entries, layout, held⟩ := layout_run tokens n (Nat.le_of_lt bound)
  generalize (run {} (tokens.take n)).1 = stack at held
  obtain ⟨waiting, groups⟩ := stack
  cases groups with
  | nil =>
      obtain rfl : entries = [] := by simpa using held
      exact .inl ⟨layout.closing_unmatched found (List.forall_mem_nil _), rfl⟩
  | cons group groups =>
      obtain ⟨⟨side, start⟩, outside⟩ := group
      cases layout with
      | base => simp at held
      | @left k _ paren outer around before opened inside barred =>
          obtain ⟨same, _⟩ := List.cons.inj held
          obtain rfl : ⟨side, start⟩ = paren := same
          cases side with
          | closing =>
              refine .inl ⟨?_, rfl⟩
              have whole := Layout.left around before opened inside barred
              exact whole.closing_unmatched found (List.forall_mem_cons.mpr ⟨rfl, barred rfl⟩)
          | opening =>
              refine .inr ⟨fun unmatched => unmatched.2 k (.inr ?_), rfl⟩
              refine ⟨before, ?_, ?_, inside⟩
              · rw [outline_getElem?, opened]
                rfl
              · rw [outline_getElem?, found]
                rfl

end Closing

/-- An operator of lower rank stands in the same group behind position `i`. -/
def GivesWay (tokens : List Token) (i : Nat) : Prop :=
  ∃ k op arriving, i < k ∧ SameGroup (outline tokens) i k ∧
    Negation.Reads tokens i (.operator op) ∧ Negation.Reads tokens k (.operator arriving) ∧
    arriving.rank < op.rank

/-- The same for tokens that are marked, with whole groups in between. -/
def Overtaken (tokens : List Token) (i : Nat) : Prop :=
  ∃ k op arriving, i < k ∧ depth? 0 (stretch (outline tokens) (i + 1) k) = some 0 ∧
    Negation.kindAt tokens i = some (.operator op) ∧
    Negation.kindAt tokens k = some (.operator arriving) ∧ arriving.rank < op.rank

theorem overtaken_iff {tokens : List Token} (balanced : Balanced (outline tokens)) (i : Nat) :
    Overtaken (Negation.mark tokens) i ↔ GivesWay tokens i := by
  have plain {k : Nat} {op : Operator} (found : Negation.kindAt (Negation.mark tokens) k =
      some (.operator op)) : (outline tokens)[k]? = some none := side_of_mark found
  simp only [Overtaken, GivesWay, Negation.outline_mark, ← balanced_iff, Negation.reads_iff]
  constructor
  · rintro ⟨k, op, arriving, behind, inside, here, there, lower⟩
    have same := (sameGroup_iff balanced behind (plain here) (plain there)).mpr inside
    exact ⟨k, op, arriving, behind, same, here, there, lower⟩
  · rintro ⟨k, op, arriving, behind, same, here, there, lower⟩
    have inside := (sameGroup_iff balanced behind (plain here) (plain there)).mp same
    exact ⟨k, op, arriving, behind, inside, here, there, lower⟩

/-- The operator at position `i` waits behind the first `n` tokens, `depth` layers from the innermost,
and no operator of lower rank has arrived in its group. -/
structure Remains (tokens : List Token) (n depth i : Nat) (op : Spanned Operator) : Prop where
  found : tokens[i]? = some ⟨.operator op.value, op.span⟩
  before : i < n
  inside : depth? 0 (stretch (outline tokens) (i + 1) n) = some depth
  highest : ∀ k arriving, i < k → k < n → depth? 0 (stretch (outline tokens) (i + 1) k) = some 0 →
    Negation.kindAt tokens k = some (.operator arriving) → op.value.rank ≤ arriving.rank

section Waiting
variable {tokens : List Token} {n depth i : Nat} {op : Spanned Operator} {token : Token}

theorem Remains.depth_behind (remains : Remains tokens n depth i op) (found : tokens[n]? = some token)
    {k : Nat} (behind : n < k) : depth? 0 (stretch (outline tokens) (i + 1) k) =
      (enter depth token.value.side?).bind fun inner =>
        depth? inner (stretch (outline tokens) (n + 1) k) := by
  have here : (outline tokens)[n]? = some token.value.side? := by
    rw [outline_getElem?, found]
    rfl
  rw [stretch_split remains.before behind here, depth_append, remains.inside]
  rfl

-- An operator keeps waiting unless the token arrives in its own group and is of lower rank.
theorem Remains.pass (remains : Remains tokens n depth i op) (found : tokens[n]? = some token)
    {inner : Nat} (entered : enter depth token.value.side? = some inner)
    (higher : ∀ arriving, depth = 0 → token.value = .operator arriving →
      op.value.rank ≤ arriving.rank) : Remains tokens (n + 1) inner i op := by
  refine ⟨remains.found, Nat.lt_succ_of_lt remains.before, ?_, ?_⟩
  · rw [remains.depth_behind found (Nat.lt_succ_self n), entered, stretch_self]
    rfl
  · intro k arriving behind bound level there
    rcases Nat.lt_succ_iff_lt_or_eq.mp bound with early | rfl
    · exact remains.highest k arriving behind early level there
    · rw [remains.inside, Option.some.injEq] at level
      rw [Negation.kindAt, found, Option.map_some, Option.some.injEq] at there
      exact higher arriving level there

theorem Remains.overtaken (remains : Remains tokens n 0 i op) {arriving : Operator}
    (found : Negation.kindAt tokens n = some (.operator arriving))
    (lower : arriving.rank < op.value.rank) : Overtaken tokens i := by
  refine ⟨n, op.value, arriving, remains.before, remains.inside, ?_, found, lower⟩
  rw [Negation.kindAt, remains.found]
  rfl

theorem Remains.not_overtaken (remains : Remains tokens n depth i op)
    (ended : ∀ k, n ≤ k → k < tokens.length →
      (∃ arriving, Negation.kindAt tokens k = some (.operator arriving)) →
      depth? 0 (stretch (outline tokens) (i + 1) k) ≠ some 0) : ¬ Overtaken tokens i := by
  rintro ⟨k, other, arriving, behind, inside, here, there, lower⟩
  obtain ⟨token, present, _⟩ := Option.map_eq_some_iff.mp there
  have bound := (List.getElem?_eq_some_iff.mp present).1
  rw [Negation.kindAt, remains.found, Option.map_some, Option.some.injEq, Kind.operator.injEq] at here
  by_cases early : k < n
  · have higher := remains.highest k arriving behind early inside there
    rw [here] at higher
    omega
  · exact ended k (Nat.le_of_not_lt early) bound ⟨arriving, there⟩ inside

/-- Every operator that waits is the one at some position. -/
def Remaining (tokens : List Token) (n : Nat) (layers : List Layer) : Prop :=
  ∀ depth op, Waits layers depth op → ∃ i, Remains tokens n depth i op

theorem Move.remaining {layers next : List Layer} {sent : Postfix} (move : Move layers token sent next)
    (ranked : Ranked layers) (remaining : Remaining tokens n layers) (found : tokens[n]? = some token) :
    Remaining tokens (n + 1) next := by
  rintro depth op ⟨layer, listed, member⟩
  cases move with
  | number =>
      obtain ⟨i, remains⟩ := remaining depth op ⟨layer, listed, member⟩
      exact ⟨i, remains.pass found rfl fun arriving _ same => by contradiction⟩
  | opening =>
      cases depth with
      | zero =>
          obtain rfl : [] = layer := by simpa using listed
          simp at member
      | succ depth =>
          obtain ⟨i, remains⟩ := remaining depth op ⟨layer, listed, member⟩
          exact ⟨i, remains.pass found rfl fun arriving _ same => by contradiction⟩
  | closing =>
      obtain ⟨i, remains⟩ := remaining (depth + 1) op ⟨layer, listed, member⟩
      exact ⟨i, remains.pass found rfl fun arriving _ same => by contradiction⟩
  | @operator waiting outer arriving place =>
      cases depth with
      | zero =>
          obtain rfl := Option.some.inj listed
          rcases List.mem_cons.mp member with rfl | kept
          · refine ⟨n, found, Nat.lt_succ_self n, ?_, fun k _ behind bound => by omega⟩
            rw [stretch_self]
            rfl
          · have old := (List.dropWhile_sublist _).subset kept
            have low := dropWhile_lower (ranked waiting List.mem_cons_self) kept
            obtain ⟨i, remains⟩ := remaining 0 op ⟨waiting, rfl, old⟩
            refine ⟨i, remains.pass found rfl fun other _ same => ?_⟩
            obtain rfl : arriving = other := Kind.operator.inj same
            exact low
      | succ depth =>
          obtain ⟨i, remains⟩ := remaining (depth + 1) op ⟨layer, listed, member⟩
          exact ⟨i, remains.pass found rfl fun other level _ => by contradiction⟩

/-- What holds of the operators that wait behind the first `n` tokens. -/
structure Reached (tokens : List Token) (n : Nat) (stack : Stack) : Prop where
  opened : Opened stack
  ranked : Ranked stack.layers
  remaining : Remaining tokens n stack.layers

theorem reached_start : Reached tokens 0 {} where
  opened := List.forall_mem_nil _
  ranked := List.forall_mem_singleton.mpr .nil
  remaining := by
    rintro depth op ⟨layer, listed, member⟩
    obtain rfl : layer = [] := List.mem_singleton.mp (List.mem_of_getElem? listed)
    simp at member

theorem Reached.next {stack : Stack} (reached : Reached tokens n stack)
    (found : tokens[n]? = some token) (free : ¬ Stuck (step stack token).1) :
    Reached tokens (n + 1) (step stack token).1 := by
  rcases step_move reached.opened token with ⟨move, opened⟩ | stuck
  · exact ⟨opened, move.ranked reached.ranked, move.remaining reached.ranked reached.remaining found⟩
  · exact absurd stuck free

-- Every prefix of a conversion that succeeds is free of closing parentheses without a partner.
theorem reached_run (closed : (run {} tokens).1.groups = []) (bound : n ≤ tokens.length) :
    Reached tokens n (run {} (tokens.take n)).1 := by
  induction n with
  | zero => exact reached_start
  | succ n ih =>
      have reached := ih (Nat.le_of_succ_le bound)
      rw [List.take_succ_eq_append_getElem bound, run_snoc]
      refine reached.next (List.getElem?_eq_getElem bound) fun stuck => ?_
      rw [← run_snoc, ← List.take_succ_eq_append_getElem bound] at stuck
      have final := run_stuck stuck (tokens.drop (n + 1))
      have whole := congrArg Prod.fst (run_append {} (tokens.take (n + 1)) (tokens.drop (n + 1)))
      rw [List.take_append_drop] at whole
      obtain ⟨group, member, _⟩ := whole ▸ final
      rw [closed] at member
      simp at member

end Waiting

section Leaving
variable {tokens : List Token} {n : Nat} {stack : Stack} {token : Token} {op arriving : Spanned Operator}

theorem yields_of_hold (gone : .yield op ∈ (stack.hold arriving).2) :
    op ∈ stack.waiting ∧ arriving.value.rank < op.value.rank := by
  have apart : Action.yield op ∉ Action.ofArrival arriving := by
    unfold Action.ofArrival
    split <;> simp
  simp only [Stack.hold, List.mem_append, apart, false_or, List.mem_singleton, reduceCtorEq, or_false,
    List.mem_map, Action.yield.injEq, exists_eq_right] at gone
  have lower := List.all_eq_true.mp List.all_takeWhile op gone
  exact ⟨(List.takeWhile_sublist _).subset gone, of_decide_eq_true lower⟩

theorem not_released_of_hold : .release op ∉ (stack.hold arriving).2 := by
  have apart : Action.release op ∉ Action.ofArrival arriving := by
    unfold Action.ofArrival
    split <;> simp
  simp [Stack.hold, apart]

theorem mem_released (action : Action) :
    action ∈ stack.released ↔ ∃ op ∈ stack.waiting, action = .release op := by
  simp only [Stack.released, List.mem_map, eq_comm]

-- Whether or not the group can be closed, all that waits in it is released.
theorem closeGroup_cases (stack : Stack) (place : Span) :
    (stack.closeGroup place).2 = stack.released ∨
      (stack.closeGroup place).2 = stack.released ++ [.unmatched place] := by
  obtain ⟨waiting, groups⟩ := stack
  rcases groups with _ | ⟨⟨⟨side, start⟩, outside⟩, groups⟩
  · exact .inr rfl
  · cases side with
    | opening => exact .inl rfl
    | closing => exact .inr rfl

theorem mem_closeGroup {action : Action} {place : Span} (gone : action ∈ (stack.closeGroup place).2) :
    action = .unmatched place ∨ ∃ op ∈ stack.waiting, action = .release op := by
  rw [← mem_released]
  rcases closeGroup_cases stack place with same | same <;> rw [same] at gone
  · exact .inr gone
  · rcases List.mem_append.mp gone with released | last
    · exact .inr released
    · exact .inl (List.mem_singleton.mp last)

theorem Reached.innermost (reached : Reached tokens n stack) (member : op ∈ stack.waiting) :
    ∃ i, Remains tokens n 0 i op :=
  reached.remaining 0 op ⟨stack.waiting, rfl, member⟩

/-- What yields is overtaken. -/
theorem Reached.yields (reached : Reached tokens n stack) (found : tokens[n]? = some token)
    (gone : .yield op ∈ (step stack token).2) :
    ∃ i, tokens[i]? = some ⟨.operator op.value, op.span⟩ ∧ Overtaken tokens i := by
  obtain ⟨kind, place⟩ := token
  rcases kind with lexeme | arriving | side
  · simp [step] at gone
  · obtain ⟨waiting, lower⟩ := yields_of_hold gone
    obtain ⟨i, remains⟩ := reached.innermost waiting
    refine ⟨i, remains.found, remains.overtaken ?_ lower⟩
    rw [Negation.kindAt, found]
    rfl
  · cases side with
    | opening => simp [step] at gone
    | closing =>
        rcases mem_closeGroup gone with other | ⟨_, _, other⟩ <;> contradiction

/-- What is released because its group is closed is not overtaken. -/
theorem Reached.releases (reached : Reached tokens n stack) (found : tokens[n]? = some token)
    (gone : .release op ∈ (step stack token).2) :
    ∃ i, tokens[i]? = some ⟨.operator op.value, op.span⟩ ∧ ¬ Overtaken tokens i := by
  obtain ⟨kind, place⟩ := token
  rcases kind with lexeme | arriving | side
  · simp [step] at gone
  · exact absurd gone not_released_of_hold
  · cases side with
    | opening => simp [step] at gone
    | closing =>
        rcases mem_closeGroup gone with other | ⟨released, waiting, same⟩
        · contradiction
        · obtain rfl : op = released := Action.release.inj same
          obtain ⟨i, remains⟩ := reached.innermost waiting
          refine ⟨i, remains.found, remains.not_overtaken ?_⟩
          rintro k least _ ⟨arriving, there⟩
          rcases Nat.eq_or_lt_of_le least with rfl | behind
          · rw [Negation.kindAt, found, Option.map_some, Option.some.injEq] at there
            contradiction
          · rw [remains.depth_behind found behind]
            exact (Option.some_ne_none 0).symm

/-- Nothing that is released at the end is overtaken. -/
theorem Reached.released (reached : Reached tokens tokens.length stack)
    (gone : .release op ∈ stack.released) :
    ∃ i, tokens[i]? = some ⟨.operator op.value, op.span⟩ ∧ ¬ Overtaken tokens i := by
  obtain ⟨released, waiting, same⟩ := (mem_released _).mp gone
  obtain rfl : op = released := Action.release.inj same
  obtain ⟨i, remains⟩ := reached.innermost waiting
  refine ⟨i, remains.found, remains.not_overtaken fun k behind bound => ?_⟩
  exact absurd bound (Nat.not_lt.mpr behind)

/-- In a conversion that succeeds, the operators that yield are those that are overtaken. -/
theorem leaves_of_closed (closed : (run {} tokens).1.groups = []) :
    (.yield op ∈ (run {} tokens).2 ++ (run {} tokens).1.released →
      ∃ i, tokens[i]? = some ⟨.operator op.value, op.span⟩ ∧ Overtaken tokens i) ∧
    (.release op ∈ (run {} tokens).2 ++ (run {} tokens).1.released →
      ∃ i, tokens[i]? = some ⟨.operator op.value, op.span⟩ ∧ ¬ Overtaken tokens i) := by
  have reached {n : Nat} {token : Token} (found : tokens[n]? = some token) :
      Reached tokens n (run {} (tokens.take n)).1 :=
    reached_run closed (Nat.le_of_lt (List.getElem?_eq_some_iff.mp found).1)
  constructor
  · intro gone
    rcases List.mem_append.mp gone with during | final
    · obtain ⟨n, token, found, now⟩ := (mem_actions_iff _ _ _).mp during
      exact (reached found).yields found now
    · obtain ⟨_, _, other⟩ := (mem_released _).mp final
      contradiction
  · intro gone
    rcases List.mem_append.mp gone with during | final
    · obtain ⟨n, token, found, now⟩ := (mem_actions_iff _ _ _).mp during
      exact (reached found).releases found now
    · have whole := reached_run closed (Nat.le_refl tokens.length)
      rw [List.take_length] at whole
      exact whole.released final

end Leaving

end Rpn.Shunting
