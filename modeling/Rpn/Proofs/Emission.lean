import Mathlib.Data.List.Forall2
import Rpn.Proofs.Layers
import Rpn.Proofs.Marking
import Rpn.Proofs.Relabel
import Rpn.Proofs.Verdict
/-!
The order in which the symbols go out. Of two tokens the earlier one goes out first when it is a
number, when its group ends before the later one, or when an operator of lower rank arrives in its
group not behind the later one; in every other case the later one goes out first. The order of any
two symbols is settled by the layers, and the layers by counting groups.
-/
namespace Rpn.Shunting

open Brackets

/-- Whether an operator that waits in the layer that `token` arrives in goes out at `token`. -/
def Ends (op : Spanned Operator) (token : Token) : Prop :=
  token.value = .paren .closing ∨ ∃ arriving, token.value = .operator arriving ∧
    arriving.rank < op.value.rank

/-- An operator `depth` layers from the innermost is sent out by a token not behind position `j`. -/
def Yields (op : Spanned Operator) (depth : Nat) (tokens : List Token) (j : Nat) : Prop :=
  ∃ k, k ≤ j ∧ depth? depth (outline (tokens.take k)) = some 0 ∧
    ∃ token, tokens[k]? = some token ∧ Ends op token

def Waits (layers : List Layer) (depth : Nat) (op : Spanned Operator) : Prop :=
  ∃ layer, layers[depth]? = some layer ∧ op ∈ layer

/-- The place of every token is its position, counted from `n`. -/
def Labelled (n : Nat) (tokens : List Token) : Prop :=
  ∀ j token, tokens[j]? = some token → token.span.lo = n + j

/-- The ranks of a layer fall from the latest operator to the earliest. -/
def Ranked (layers : List Layer) : Prop :=
  ∀ layer ∈ layers, layer.Pairwise fun later op => op.value.rank ≤ later.value.rank

structure Ready (n : Nat) (layers : List Layer) : Prop where
  ranked : ∀ layer ∈ layers, layer.Pairwise fun later op => op.value.rank ≤ later.value.rank
  placed : layers.flatten.Pairwise fun later op => op.span.lo < later.span.lo
  earlier : ∀ op ∈ layers.flatten, op.span.lo < n

def places (symbols : Postfix) : List Nat := symbols.map fun symbol => symbol.span.lo

section Orders
variable {order front back : List Nat} {a b : Nat}

theorem before_append (absent : b ∉ front) (present : a ∈ front) :
    (front ++ back).idxOf a < (front ++ back).idxOf b := by
  rw [List.idxOf_append, List.idxOf_append, if_pos present, if_neg absent]
  exact Nat.lt_of_lt_of_le (List.idxOf_lt_length_of_mem present) (Nat.le_add_left _ _)

theorem before_append_iff (absent : a ∉ front) (absentOther : b ∉ front) :
    (front ++ back).idxOf a < (front ++ back).idxOf b ↔ back.idxOf a < back.idxOf b := by
  rw [List.idxOf_append, List.idxOf_append, if_neg absent, if_neg absentOther]
  exact Nat.add_lt_add_iff_right

theorem before_of_sublist (nodup : order.Nodup) (pair : [a, b].Sublist order) :
    order.idxOf a < order.idxOf b := by
  induction order with
  | nil => simp at pair
  | cons head rest ih =>
      obtain ⟨fresh, tail⟩ := List.nodup_cons.mp nodup
      rcases List.sublist_cons_iff.mp pair with later | ⟨single, same, later⟩
      · have first := ih tail later
        have left : head ≠ a := fun same => fresh (same ▸ later.subset (by simp))
        have right : head ≠ b := fun same => fresh (same ▸ later.subset (by simp))
        simpa [List.idxOf_cons_ne _ left, List.idxOf_cons_ne _ right] using first
      · obtain ⟨rfl, rfl⟩ := List.cons.inj same
        have right : a ≠ b := fun same => fresh (same ▸ later.subset (by simp))
        simp [List.idxOf_cons_ne _ right]

end Orders

section Waiting
variable {waiting : Layer} {op : Spanned Operator}

-- The ranks of a layer fall from the latest to the earliest, so what yields stands in front.
theorem mem_takeWhile_yields (ranked : waiting.Pairwise fun later op => op.value.rank ≤ later.value.rank)
    (arriving : Spanned Operator) :
    op ∈ waiting.takeWhile (Stack.yieldsTo arriving) ↔
      op ∈ waiting ∧ arriving.value.rank < op.value.rank := by
  induction waiting with
  | nil => simp
  | cons latest rest ih =>
      obtain ⟨highest, tail⟩ := List.pairwise_cons.mp ranked
      by_cases yields : arriving.value.rank < latest.value.rank
      · simp only [List.takeWhile_cons, Stack.yieldsTo, yields, decide_true, ↓reduceIte,
          List.mem_cons]
        constructor
        · rintro (same | member)
          · subst same
            exact ⟨.inl rfl, yields⟩
          · exact ⟨.inr ((ih tail).mp member).1, ((ih tail).mp member).2⟩
        · rintro ⟨same | member, lower⟩
          · exact .inl same
          · exact .inr ((ih tail).mpr ⟨member, lower⟩)
      · simp only [List.takeWhile_cons, Stack.yieldsTo, yields, decide_false]
        constructor
        · intro member
          simp at member
        · rintro ⟨member, lower⟩
          rcases List.mem_cons.mp member with same | old
          · subst same
            exact absurd lower yields
          · have := highest op old
            omega

theorem mem_dropWhile_yields (ranked : waiting.Pairwise fun later op => op.value.rank ≤ later.value.rank)
    {arriving : Spanned Operator} (member : op ∈ waiting)
    (higher : ¬ arriving.value.rank < op.value.rank) :
    op ∈ waiting.dropWhile (Stack.yieldsTo arriving) := by
  rw [← List.takeWhile_append_dropWhile (p := Stack.yieldsTo arriving) (l := waiting),
    List.mem_append] at member
  rcases member with taken | kept
  · exact absurd ((mem_takeWhile_yields ranked arriving).mp taken).2 higher
  · exact kept

theorem dropWhile_lower {arriving : Spanned Operator}
    (ranked : waiting.Pairwise fun later op => op.value.rank ≤ later.value.rank)
    (member : op ∈ waiting.dropWhile (Stack.yieldsTo arriving)) :
    op.value.rank ≤ arriving.value.rank := by
  induction waiting with
  | nil => simp at member
  | cons latest rest ih =>
      obtain ⟨highest, tail⟩ := List.pairwise_cons.mp ranked
      by_cases yields : arriving.value.rank < latest.value.rank
      · simp only [List.dropWhile_cons, Stack.yieldsTo, yields, decide_true, ↓reduceIte] at member
        exact ih tail member
      · simp only [List.dropWhile_cons, Stack.yieldsTo, yields, decide_false] at member
        rcases List.mem_cons.mp member with same | old
        · subst same
          omega
        · have := highest op old
          omega

end Waiting

section Yielding
variable {op : Spanned Operator} {depth j : Nat} {token : Token} {rest : List Token}

theorem yields_zero : Yields op depth (token :: rest) 0 ↔ depth = 0 ∧ Ends op token := by
  constructor
  · rintro ⟨k, bound, level, found, same, ends⟩
    obtain rfl : k = 0 := Nat.le_zero.mp bound
    simp only [List.getElem?_cons_zero, Option.some.injEq] at same
    subst same
    simp only [List.take_zero, outline, List.map_nil, depth?, Option.some.injEq] at level
    exact ⟨level, ends⟩
  · rintro ⟨level, ends⟩
    subst level
    exact ⟨0, Nat.le_refl 0, rfl, token, rfl, ends⟩

theorem yields_succ : Yields op depth (token :: rest) (j + 1) ↔
    (depth = 0 ∧ Ends op token) ∨
      ∃ inner, enter depth token.value.side? = some inner ∧ Yields op inner rest j := by
  constructor
  · rintro ⟨k, bound, level, found, same, ends⟩
    cases k with
    | zero => exact .inl (yields_zero.mp ⟨0, Nat.le_refl 0, level, found, same, ends⟩)
    | succ k =>
        obtain ⟨inner, entered, tail⟩ := Option.bind_eq_some_iff.mp level
        exact .inr ⟨inner, entered, k, Nat.le_of_succ_le_succ bound, tail, found, same, ends⟩
  · rintro (⟨same, ends⟩ | ⟨inner, entered, k, bound, level, found, same, ends⟩)
    · subst same
      exact ⟨0, Nat.zero_le _, rfl, token, rfl, ends⟩
    · refine ⟨k + 1, Nat.succ_le_succ bound, ?_, found, same, ends⟩
      exact Option.bind_eq_some_iff.mpr ⟨inner, entered, level⟩

end Yielding

section Labels
variable {n : Nat} {layers next : List Layer} {token : Token} {tokens : List Token}
  {sent out : Postfix} {op : Spanned Operator}

theorem Labelled.head (labelled : Labelled n (token :: tokens)) : token.span.lo = n :=
  labelled 0 token rfl

theorem Labelled.tail (labelled : Labelled n (token :: tokens)) : Labelled (n + 1) tokens := by
  intro j later found
  have := labelled (j + 1) later found
  omega

theorem Labelled.single (here : token.span.lo = n) : Labelled n [token] := by
  intro j other found
  cases j with
  | zero =>
      obtain rfl : token = other := by simpa using found
      exact here
  | succ j => simp at found

theorem Labelled.symbols (labelled : Labelled n tokens) :
    (places (tokens.filterMap Token.symbol?)).Pairwise (· < ·) ∧
      ∀ place ∈ places (tokens.filterMap Token.symbol?), n ≤ place := by
  induction tokens generalizing n with
  | nil => simp [places]
  | cons token rest ih =>
      obtain ⟨rising, above⟩ := ih labelled.tail
      have beyond : ∀ place ∈ places (rest.filterMap Token.symbol?), n < place := above
      cases read : token.symbol? with
      | none =>
          rw [List.filterMap_cons_none read]
          exact ⟨rising, fun place member => Nat.le_of_lt (beyond place member)⟩
      | some symbol =>
          have here : symbol.span.lo = n := by
            obtain ⟨value, _, same⟩ := Option.map_eq_some_iff.mp read
            rw [← same]
            exact labelled.head
          rw [List.filterMap_cons_some read]
          simp only [places, List.map_cons, List.pairwise_cons, List.mem_cons, here]
          refine ⟨⟨beyond, rising⟩, ?_⟩
          rintro place (same | member)
          · omega
          · exact Nat.le_of_lt (beyond place member)

theorem mem_flatten_of_waits {depth : Nat} (waits : Waits layers depth op) : op ∈ layers.flatten := by
  obtain ⟨layer, found, member⟩ := waits
  exact List.mem_flatten.mpr ⟨layer, List.mem_of_getElem? found, member⟩

theorem Ready.nodup (ready : Ready n layers) (labelled : Labelled n tokens) :
    (places (layers.flatten.map written ++ tokens.filterMap Token.symbol?)).Nodup := by
  obtain ⟨rising, above⟩ := labelled.symbols
  simp only [places, List.map_append, List.map_map]
  rw [List.nodup_append]
  refine ⟨?_, rising.imp Nat.ne_of_lt, ?_⟩
  · exact List.pairwise_map.mpr (ready.placed.imp fun below => Nat.ne_of_gt below)
  · intro place waiting other arriving
    obtain ⟨op, member, same⟩ := List.mem_map.mp waiting
    have below : op.span.lo < n := ready.earlier op member
    have reached := above other arriving
    change op.span.lo = place at same
    omega

theorem Runs.nodup (runs : Runs layers tokens out) (ready : Ready n layers)
    (labelled : Labelled n tokens) : (places out).Nodup :=
  ((runs.perm.map _).nodup_iff).mpr (ready.nodup labelled)

theorem Move.nodup (move : Move layers token sent next) (ready : Ready n layers)
    (here : token.span.lo = n) : (places (sent ++ next.flatten.map written)).Nodup := by
  have single : [token].filterMap Token.symbol? = token.symbol?.toList := by
    rw [List.filterMap_cons, List.filterMap_nil]
    cases token.symbol? <;> rfl
  have nodup := ready.nodup (Labelled.single here)
  rw [single] at nodup
  exact ((move.perm.map _).nodup_iff).mpr nodup

theorem Move.fresh (move : Move layers token sent next) (ready : Ready n layers)
    (here : token.span.lo = n) (member : op ∈ next.flatten) : op.span.lo ∉ places sent := by
  have nodup := move.nodup ready here
  rw [places, List.map_append, List.nodup_append] at nodup
  intro present
  exact nodup.2.2 _ present _ (List.mem_map.mpr ⟨written op, List.mem_map_of_mem member, rfl⟩) rfl

theorem Move.sent_le (move : Move layers token sent next) (ready : Ready n layers)
    (here : token.span.lo = n) : ∀ place ∈ places sent, place ≤ n := by
  intro place member
  obtain ⟨symbol, present, same⟩ := List.mem_map.mp member
  subst same
  rcases List.mem_append.mp (move.perm.subset (List.mem_append_left _ present)) with waiting | now
  · obtain ⟨op, old, same⟩ := List.mem_map.mp waiting
    subst same
    exact Nat.le_of_lt (ready.earlier op old)
  · obtain ⟨value, _, same⟩ := Option.map_eq_some_iff.mp (Option.mem_toList.mp now)
    rw [← same]
    exact Nat.le_of_eq here

-- A token goes out no sooner than it arrives.
theorem Move.not_yet (move : Move layers token sent next) (ready : Ready n layers)
    (labelled : Labelled n (token :: tokens)) {j : Nat} {later : Token}
    (found : tokens[j]? = some later) : later.span.lo ∉ places sent := by
  intro member
  have bound := move.sent_le ready labelled.head _ member
  have place := labelled (j + 1) later found
  omega

theorem Move.ranked (move : Move layers token sent next) (ranked : Ranked layers) : Ranked next := by
  cases move with
  | number => exact ranked
  | opening => exact List.forall_mem_cons.mpr ⟨.nil, ranked⟩
  | closing => exact (List.forall_mem_cons.mp ranked).2
  | @operator waiting outer op place =>
      obtain ⟨top, others⟩ := List.forall_mem_cons.mp ranked
      refine List.forall_mem_cons.mpr ⟨List.pairwise_cons.mpr ⟨?_, ?_⟩, others⟩
      · exact fun lower member => dropWhile_lower top member
      · exact top.sublist (List.dropWhile_sublist _)

theorem Move.ready (move : Move layers token sent next) (ready : Ready n layers)
    (here : token.span.lo = n) : Ready (n + 1) next := by
  have later : ∀ op ∈ layers.flatten, op.span.lo < n + 1 :=
    fun op member => Nat.lt_succ_of_lt (ready.earlier op member)
  have ranked := move.ranked ready.ranked
  cases move with
  | number => exact ⟨ranked, ready.placed, later⟩
  | opening => exact ⟨ranked, ready.placed, later⟩
  | closing =>
      refine ⟨ranked, (List.pairwise_append.mp ready.placed).2.1, ?_⟩
      exact fun op member => later op (List.mem_append_right _ member)
  | @operator waiting outer op place =>
      have kept : (waiting.dropWhile (Stack.yieldsTo ⟨op, place⟩) ++ outer.flatten).Sublist
          (waiting :: outer).flatten := (List.dropWhile_sublist _).append_right _
      refine ⟨ranked, ?_, ?_⟩
      · refine List.pairwise_cons.mpr ⟨?_, ready.placed.sublist kept⟩
        intro lower member
        have := ready.earlier lower (kept.subset member)
        exact here ▸ this
      · intro lower member
        rcases List.mem_cons.mp member with same | old
        · subst same
          exact Nat.lt_succ_of_le (Nat.le_of_eq here)
        · exact later lower (kept.subset old)

-- An operator that waits goes out at a token that ends it, and else keeps waiting in its group.
theorem Move.waits (move : Move layers token sent next) (ready : Ready n layers) {depth : Nat}
    (waits : Waits layers depth op) :
    (depth = 0 ∧ Ends op token ∧ written op ∈ sent) ∨
    (¬ (depth = 0 ∧ Ends op token) ∧
      ∃ inner, enter depth token.value.side? = some inner ∧ Waits next inner op) := by
  obtain ⟨layer, found, member⟩ := waits
  cases move with
  | number =>
      right
      refine ⟨?_, depth, rfl, layer, found, member⟩
      rintro ⟨_, closing | ⟨arriving, same, _⟩⟩ <;> contradiction
  | opening =>
      right
      refine ⟨?_, depth + 1, rfl, layer, found, member⟩
      rintro ⟨_, closing | ⟨arriving, same, _⟩⟩
      · injection closing
        contradiction
      · contradiction
  | closing =>
      cases depth with
      | zero =>
          obtain rfl : _ = layer := by simpa using found
          exact .inl ⟨rfl, .inl rfl, List.mem_map_of_mem member⟩
      | succ depth =>
          right
          refine ⟨?_, depth, rfl, layer, found, member⟩
          rintro ⟨level, _⟩
          contradiction
  | @operator waiting outer arriving place =>
      cases depth with
      | zero =>
          obtain rfl : waiting = layer := by simpa using found
          have top := ready.ranked waiting List.mem_cons_self
          by_cases lower : arriving.rank < op.value.rank
          · left
            refine ⟨rfl, .inr ⟨arriving, rfl, lower⟩, List.mem_map_of_mem ?_⟩
            exact (mem_takeWhile_yields top ⟨arriving, place⟩).mpr ⟨member, lower⟩
          · right
            refine ⟨?_, 0, rfl, _, rfl, List.mem_cons_of_mem _ (mem_dropWhile_yields top member lower)⟩
            rintro ⟨_, closing | ⟨other, same, yields⟩⟩
            · contradiction
            · obtain rfl : arriving = other := Kind.operator.inj same
              exact lower yields
      | succ depth =>
          right
          refine ⟨?_, depth + 1, rfl, layer, found, member⟩
          rintro ⟨level, _⟩
          contradiction

theorem places_append (front back : Postfix) : places (front ++ back) = places front ++ places back :=
  List.map_append

-- The token that arrives is newer than all that waits, so it goes out before what keeps waiting.
theorem Move.arriving_first (move : Move layers token sent next) (tail : Runs next tokens out)
    (ready : Ready n layers) (labelled : Labelled n (token :: tokens))
    (plain : token.value.isParen = false) (member : op ∈ next.flatten) (older : op.span.lo < n) :
    (places (sent ++ out)).idxOf token.span.lo < (places (sent ++ out)).idxOf op.span.lo := by
  have here := labelled.head
  have nodup := tail.nodup (move.ready ready here) labelled.tail
  have absent := move.fresh ready here member
  have order := tail.keeps_order
  rw [places_append]
  cases move with
  | opening => contradiction
  | closing => contradiction
  | number => exact before_append absent List.mem_cons_self
  | @operator waiting outer arriving place =>
      have now := (@Move.operator waiting outer arriving place).fresh ready here List.mem_cons_self
      refine (before_append_iff now absent).mpr (before_of_sublist nodup ?_)
      rcases List.mem_cons.mp member with same | old
      · have placed : op.span.lo = n := same ▸ here
        omega
      · have waits : [written ⟨arriving, place⟩, written op].Sublist out :=
          (List.Sublist.cons_cons _ (List.singleton_sublist.mpr (List.mem_map_of_mem old))).trans order
        exact waits.map fun symbol => symbol.span.lo

theorem Move.sent_first (move : Move layers token sent next) (ready : Ready n layers)
    (here : token.span.lo = n) (plain : token.value.isParen = false) (ends : Ends op token) :
    n ∉ places sent := by
  cases move with
  | opening => contradiction
  | closing => contradiction
  | number => rcases ends with closing | ⟨arriving, same, _⟩ <;> contradiction
  | operator =>
      have now := (Move.operator).fresh ready here List.mem_cons_self
      rwa [← here]

/-- An operator that waits goes out before a later token exactly when something up to that token
sends it out. -/
theorem Runs.waiting_first_iff (runs : Runs layers tokens out) (ready : Ready n layers)
    (labelled : Labelled n tokens) {depth j : Nat} {later : Token} (waits : Waits layers depth op)
    (found : tokens[j]? = some later) (plain : later.value.isParen = false) :
    (places out).idxOf op.span.lo < (places out).idxOf later.span.lo ↔
      Yields op depth tokens j := by
  induction runs generalizing n depth j with
  | done => simp at found
  | @step layers next arriving rest sent out move tail ih =>
      have here := labelled.head
      have older := ready.earlier op (mem_flatten_of_waits waits)
      rcases move.waits ready waits with ⟨level, ends, gone⟩ | ⟨stays, inner, entered, waitsNext⟩
      · have present : op.span.lo ∈ places sent := List.mem_map.mpr ⟨_, gone, rfl⟩
        have absent : later.span.lo ∉ places sent := by
          cases j with
          | zero =>
              obtain rfl : arriving = later := by simpa using found
              rw [here]
              exact move.sent_first ready here plain ends
          | succ j => exact move.not_yet ready labelled found
        rw [places_append]
        refine iff_of_true (before_append absent present) ?_
        cases j with
        | zero => exact yields_zero.mpr ⟨level, ends⟩
        | succ j => exact yields_succ.mpr (.inl ⟨level, ends⟩)
      · have kept := mem_flatten_of_waits waitsNext
        cases j with
        | zero =>
            obtain rfl : arriving = later := by simpa using found
            have first := move.arriving_first tail ready labelled plain kept older
            exact iff_of_false (Nat.lt_asymm first) fun yields => stays (yields_zero.mp yields)
        | succ j =>
            have absent := move.not_yet ready labelled found
            rw [places_append, before_append_iff (move.fresh ready here kept) absent,
              ih (move.ready ready here) labelled.tail waitsNext found, yields_succ]
            constructor
            · exact fun yields => .inr ⟨inner, entered, yields⟩
            · rintro (now | ⟨other, same, yields⟩)
              · exact absurd now stays
              · rw [entered, Option.some.injEq] at same
                rwa [same]

/-- Which of two tokens of the list goes out first. -/
theorem Runs.first_iff (runs : Runs layers tokens out) (ready : Ready n layers)
    (labelled : Labelled n tokens) {i j : Nat} {first later : Token} (less : i < j)
    (found : tokens[i]? = some first) (foundLater : tokens[j]? = some later)
    (plain : first.value.isParen = false) (plainLater : later.value.isParen = false) :
    (places out).idxOf first.span.lo < (places out).idxOf later.span.lo ↔
      first.value.isNumber ∨ ∃ op, first.value = .operator op ∧
        Yields ⟨op, first.span⟩ 0 (tokens.drop (i + 1)) (j - (i + 1)) := by
  induction runs generalizing n i j with
  | done => simp at found
  | @step layers next arriving rest sent out move tail ih =>
      have here := labelled.head
      cases j with
      | zero => omega
      | succ j =>
          have absent := move.not_yet ready labelled foundLater
          cases i with
          | succ i =>
              have absentFirst := move.not_yet ready labelled found
              rw [places_append, before_append_iff absentFirst absent,
                ih (move.ready ready here) labelled.tail (Nat.lt_of_succ_lt_succ less) found foundLater,
                Nat.add_sub_add_right]
              rfl
          | zero =>
              obtain rfl : arriving = first := by simpa using found
              have readyNext := move.ready ready here
              rw [places_append]
              cases move with
              | opening => contradiction
              | closing => contradiction
              | number => exact iff_of_true (before_append absent List.mem_cons_self) (.inl rfl)
              | @operator waiting outer op place =>
                  have now := (@Move.operator waiting outer op place).fresh ready here List.mem_cons_self
                  have waits : Waits ((⟨op, place⟩ ::
                      waiting.dropWhile (Stack.yieldsTo ⟨op, place⟩)) :: outer) 0 ⟨op, place⟩ :=
                    ⟨_, rfl, List.mem_cons_self⟩
                  rw [before_append_iff now absent,
                    tail.waiting_first_iff readyNext labelled.tail waits foundLater plainLater]
                  constructor
                  · exact fun yields => .inr ⟨op, rfl, yields⟩
                  · rintro (number | ⟨other, same, yields⟩)
                    · contradiction
                    · obtain rfl : op = other := Kind.operator.inj same
                      exact yields

end Labels

/-! The layers know places only, so the tokens are numbered by their positions first, and what comes
out is a list of positions. Putting the original places back changes nothing else. -/
section Numbered

def numbered (tokens : List Token) : List Token :=
  tokens.zipIdx.map fun (token, i) => ⟨token.value, .sized i 0⟩

def placeOf (tokens : List Token) (label : Span) : Span :=
  ((tokens[label.lo]?).map Spanned.span).getD label

theorem numbered_getElem? (tokens : List Token) (i : Nat) :
    (numbered tokens)[i]? = tokens[i]?.map fun token => ⟨token.value, .sized i 0⟩ := by
  simp only [numbered, List.getElem?_map, List.getElem?_zipIdx, Option.map_map, Nat.zero_add]
  rfl

theorem relabel_numbered (tokens : List Token) :
    (numbered tokens).map (Spanned.relabel (placeOf tokens)) = tokens := by
  apply List.ext_getElem?
  intro i
  rw [List.getElem?_map, numbered_getElem?]
  cases found : tokens[i]? with
  | none => rfl
  | some token => simp [Spanned.relabel, placeOf, Span.sized, found]

theorem kindAt_numbered (tokens : List Token) (i : Nat) :
    Negation.kindAt (numbered tokens) i = Negation.kindAt tokens i := by
  simp only [Negation.kindAt, numbered_getElem?, Option.map_map]
  rfl

theorem mark_numbered_getElem? (tokens : List Token) (i : Nat) :
    (Negation.mark (numbered tokens))[i]? =
      (Negation.kindAt (Negation.mark tokens) i).map fun kind => ⟨kind, .sized i 0⟩ := by
  have before : Negation.kindBefore (numbered tokens) i = Negation.kindBefore tokens i := by
    cases i with
    | zero => rfl
    | succ i => exact kindAt_numbered tokens i
  rw [Negation.mark_getElem?, numbered_getElem?, before, kindAt_numbered]
  cases found : tokens[i]? with
  | none => simp [Negation.kindAt, Negation.mark_getElem?, found]
  | some token => simp [Negation.kindAt_mark found, Spanned.map]

theorem labelled_mark_numbered (tokens : List Token) :
    Labelled 0 (Negation.mark (numbered tokens)) := by
  intro i token found
  rw [mark_numbered_getElem?] at found
  obtain ⟨kind, _, same⟩ := Option.map_eq_some_iff.mp found
  rw [← same]
  exact (Nat.zero_add i).symm

theorem outline_mark_numbered (tokens : List Token) :
    outline (Negation.mark (numbered tokens)) = outline tokens := by
  rw [Negation.outline_mark]
  apply List.ext_getElem?
  intro i
  simp only [outline, List.getElem?_map, numbered_getElem?, Option.map_map]
  rfl

end Numbered

theorem balanced_of_parse {tokens : List Token} {symbols : Postfix}
    (converted : parse tokens = .ok symbols) : Balanced (outline tokens) := by
  obtain ⟨entries, layout, held⟩ :=
    layout_run (Negation.mark tokens) (Negation.mark tokens).length (Nat.le_refl _)
  rw [List.take_length, closed_of_parse converted] at held
  obtain rfl : entries = [] := by simpa using held.symm
  cases layout with
  | base inside =>
      have length : (Negation.mark tokens).length = (outline (Negation.mark tokens)).length := by
        simp [outline]
      rw [length, stretch_full, Negation.outline_mark] at inside
      exact inside

/-- The operator at position `i` has to go out before what stands behind position `k`: its group
ends there, or an operator of lower rank stands there in the same group. -/
def SendsOut (tokens : List Token) (i k : Nat) : Prop :=
  ClosesGroup (outline tokens) i k ∨
    (SameGroup (outline tokens) i k ∧ ∃ op arriving, Negation.Reads tokens i (.operator op) ∧
      Negation.Reads tokens k (.operator arriving) ∧ arriving.rank < op.rank)

theorem outline_take_drop (tokens : List Token) (lo count : Nat) :
    outline ((tokens.drop lo).take count) = stretch (outline tokens) lo (lo + count) := by
  rw [stretch, List.drop_take, Nat.add_sub_cancel_left, outline, List.map_take, List.map_drop]
  rfl

theorem side_of_mark {tokens : List Token} {i : Nat} {kind : Kind}
    (found : Negation.kindAt (Negation.mark tokens) i = some kind) :
    (outline tokens)[i]? = some kind.side? := by
  obtain ⟨token, present, same⟩ := Option.map_eq_some_iff.mp found
  rw [← Negation.outline_mark, outline_getElem?, present, ← same]
  rfl

-- What sends an operator out stands in its own group, behind nothing but whole groups.
theorem ends_iff {tokens : List Token} {i k : Nat} {op : Operator} (label : Span)
    (balanced : Balanced (outline tokens)) (less : i < k)
    (reads : Negation.Reads tokens i (.operator op)) :
    (depth? 0 (stretch (outline tokens) (i + 1) k) = some 0 ∧
      ∃ kind, Negation.kindAt (Negation.mark tokens) k = some kind ∧
        Ends ⟨op, label⟩ ⟨kind, .sized k 0⟩) ↔ SendsOut tokens i k := by
  have plain := side_of_mark ((Negation.reads_iff tokens i _).mp reads)
  rw [← balanced_iff]
  constructor
  · rintro ⟨inside, kind, found, closing | ⟨arriving, same, lower⟩⟩
    · obtain rfl : kind = .paren .closing := closing
      exact .inl ((closesGroup_iff balanced less plain (side_of_mark found)).mpr inside)
    · obtain rfl : kind = .operator arriving := same
      refine .inr ⟨(sameGroup_iff balanced less plain (side_of_mark found)).mpr inside, ?_⟩
      exact ⟨op, arriving, reads, (Negation.reads_iff tokens k _).mpr found, lower⟩
  · rintro (closes | ⟨same, other, arriving, readsAlso, found, lower⟩)
    · obtain ⟨p, group⟩ := id closes
      have closing := group.partners.closes
      refine ⟨(closesGroup_iff balanced less plain closing).mp closes, .paren .closing, ?_, .inl rfl⟩
      rw [← Negation.outline_mark, outline_getElem?] at closing
      obtain ⟨token, present, same⟩ := Option.map_eq_some_iff.mp closing
      obtain ⟨kind, place⟩ := token
      rcases kind with lexeme | _ | side
      · contradiction
      · contradiction
      · obtain rfl : side = Side.closing := Option.some.inj same
        simp [Negation.kindAt, present]
    · obtain rfl : op = other := Kind.operator.inj (reads.unique readsAlso)
      rw [Negation.reads_iff] at found
      exact ⟨(sameGroup_iff balanced less plain (side_of_mark found)).mp same, _, found,
        .inr ⟨arriving, rfl, lower⟩⟩

theorem yields_iff {tokens : List Token} {i j : Nat} {op : Operator} (label : Span)
    (balanced : Balanced (outline tokens)) (less : i < j)
    (reads : Negation.Reads tokens i (.operator op)) :
    Yields ⟨op, label⟩ 0 ((Negation.mark (numbered tokens)).drop (i + 1)) (j - (i + 1)) ↔
      ∃ k, i < k ∧ k ≤ j ∧ SendsOut tokens i k := by
  have step : ∀ count, (depth? 0 (outline (((Negation.mark (numbered tokens)).drop (i + 1)).take
        count)) = some 0 ∧ ∃ token, ((Negation.mark (numbered tokens)).drop (i + 1))[count]? =
        some token ∧ Ends ⟨op, label⟩ token) ↔ SendsOut tokens i (i + 1 + count) := by
    intro count
    rw [← ends_iff label balanced (by omega) reads, outline_take_drop, outline_mark_numbered,
      List.getElem?_drop, mark_numbered_getElem?]
    simp only [Option.map_eq_some_iff, ↓existsAndEq, and_true]
  constructor
  · rintro ⟨count, bound, level, ends⟩
    exact ⟨i + 1 + count, by omega, by omega, (step count).mp ⟨level, ends⟩⟩
  · rintro ⟨k, after, bound, sends⟩
    obtain ⟨count, rfl⟩ := Nat.exists_eq_add_of_le after
    obtain ⟨level, ends⟩ := (step count).mpr sends
    exact ⟨count, by omega, level, ends⟩

/-- Which of two tokens goes out first, the one at `i` standing in front of the one at `j`. -/
def GoesFirst (tokens : List Token) (i j : Nat) : Prop :=
  (∃ lexeme, Negation.kindAt tokens i = some (.number lexeme)) ∨
    ∃ k, i < k ∧ k ≤ j ∧ SendsOut tokens i k

/-- The symbol of the token at position `i`, at the token's own place. -/
def Emits (tokens : List Token) (i : Nat) (symbol : Spanned Symbol) : Prop :=
  ∃ token kind, tokens[i]? = some token ∧ Negation.Reads tokens i kind ∧
    kind.symbol? = some symbol.value ∧ symbol.span = token.span

theorem symbol_of_numbered {tokens : List Token} {symbol : Spanned Symbol}
    (member : symbol ∈ (Negation.mark (numbered tokens)).filterMap Token.symbol?) :
    Emits tokens symbol.span.lo (symbol.relabel (placeOf tokens)) := by
  obtain ⟨token, present, read⟩ := List.mem_filterMap.mp member
  obtain ⟨i, found⟩ := List.mem_iff_getElem?.mp present
  rw [mark_numbered_getElem?] at found
  obtain ⟨kind, reads, same⟩ := Option.map_eq_some_iff.mp found
  subst same
  obtain ⟨value, valued, same⟩ := Option.map_eq_some_iff.mp read
  subst same
  have original : ∃ token, tokens[i]? = some token := by
    obtain ⟨marked, there, _⟩ := Option.map_eq_some_iff.mp reads
    rw [Negation.mark_getElem?] at there
    obtain ⟨token, there, _⟩ := Option.map_eq_some_iff.mp there
    exact ⟨token, there⟩
  obtain ⟨token, there⟩ := original
  refine ⟨token, kind, there, (Negation.reads_iff tokens i kind).mpr reads, valued, ?_⟩
  simp [placeOf, Span.sized, there]

theorem ready_initial : Ready 0 [[]] := by
  refine ⟨fun layer member => ?_, .nil, fun op member => ?_⟩
  · obtain rfl : layer = [] := List.mem_singleton.mp member
    exact .nil
  · simp at member

theorem isParen_of_reads {tokens : List Token} {i : Nat} {token : Token} {kind : Kind}
    (found : tokens[i]? = some token) (reads : Negation.kindAt (Negation.mark tokens) i = some kind) :
    kind.isParen = token.value.isParen := by
  rw [Negation.kindAt_mark found, Option.some.injEq] at reads
  have sides : kind.side? = token.value.side? := reads ▸ Negation.resolve_side _ _ token.value
  cases kind <;> cases known : token.value <;> simp_all [Kind.side?, Kind.isParen]

theorem reads_exists {tokens : List Token} {i : Nat} {token : Token} (found : tokens[i]? = some token)
    (plain : token.value.isParen = false) :
    ∃ kind, Negation.Reads tokens i kind ∧ kind.isParen = false ∧
      (Negation.mark (numbered tokens))[i]? = some ⟨kind, .sized i 0⟩ := by
  have reads := Negation.kindAt_mark found
  refine ⟨_, (Negation.reads_iff tokens i _).mpr reads, ?_, ?_⟩
  · rw [isParen_of_reads found reads]
    exact plain
  · rw [mark_numbered_getElem?, reads]
    rfl

theorem mem_places_iff (tokens : List Token) (i : Nat) :
    i ∈ places ((Negation.mark (numbered tokens)).filterMap Token.symbol?) ↔
      ∃ token, tokens[i]? = some token ∧ token.value.isParen = false := by
  constructor
  · intro member
    obtain ⟨symbol, present, same⟩ := List.mem_map.mp member
    obtain ⟨token, kind, found, reads, valued, _⟩ := symbol_of_numbered present
    rw [same] at found reads
    refine ⟨token, found, ?_⟩
    rw [← isParen_of_reads found ((Negation.reads_iff tokens i kind).mp reads)]
    cases kind with
    | paren side => contradiction
    | number lexeme => rfl
    | operator op => rfl
  · rintro ⟨token, found, plain⟩
    obtain ⟨kind, reads, plainKind, there⟩ := reads_exists found plain
    have emitted : ∃ value, kind.symbol? = some value := by
      cases kind with
      | paren side => contradiction
      | number lexeme => exact ⟨_, rfl⟩
      | operator op => exact ⟨_, rfl⟩
    obtain ⟨value, valued⟩ := emitted
    refine List.mem_map.mpr ⟨⟨value, .sized i 0⟩, ?_, rfl⟩
    refine List.mem_filterMap.mpr ⟨_, List.mem_of_getElem? there, ?_⟩
    simp [Token.symbol?, valued]

theorem number_iff {tokens : List Token} {i : Nat} {kind : Kind}
    (reads : Negation.Reads tokens i kind) :
    kind.isNumber ↔ ∃ lexeme, Negation.kindAt tokens i = some (.number lexeme) := by
  obtain ⟨original, found, marked, unmarked⟩ := reads
  rw [found]
  by_cases negated : original = .operator (.binary .sub) ∧ Negation.Negates tokens i
  · simp [marked negated, negated.1, Kind.isNumber]
  · rw [unmarked negated]
    cases original <;> simp [Kind.isNumber]

theorem goesFirst_iff {tokens : List Token} {i j : Nat} {kind : Kind} (label : Span)
    (balanced : Balanced (outline tokens)) (less : i < j) (reads : Negation.Reads tokens i kind)
    (plain : kind.isParen = false) :
    (kind.isNumber ∨ ∃ op, kind = .operator op ∧
      Yields ⟨op, label⟩ 0 ((Negation.mark (numbered tokens)).drop (i + 1)) (j - (i + 1))) ↔
      GoesFirst tokens i j := by
  rw [number_iff reads]
  apply or_congr_right'
  intro other
  constructor
  · rintro ⟨op, rfl, yields⟩
    exact (yields_iff label balanced less reads).mp yields
  · intro sends
    cases kind with
    | paren side => contradiction
    | number lexeme => exact absurd ((number_iff reads).mp rfl) other
    | operator op => exact ⟨op, rfl, (yields_iff label balanced less reads).mpr sends⟩

/-- Every token that is no parenthesis goes out once, at its own place and with every minus read as
it stands. Of two of them the earlier one goes out first exactly when it is a number, or when
something up to the later one sends it out. -/
theorem emission_exact (tokens : List Token) (symbols : Postfix)
    (converted : parse tokens = .ok symbols) :
    ∃ order : List Nat, order.Nodup ∧
      (∀ i, i ∈ order ↔ ∃ token, tokens[i]? = some token ∧ token.value.isParen = false) ∧
      List.Forall₂ (Emits tokens) order symbols ∧
      ∀ i ∈ order, ∀ j ∈ order, i < j →
        (order.idxOf i < order.idxOf j ↔ GoesFirst tokens i j) := by
  have renamed := parse_relabel (placeOf tokens) (numbered tokens)
  rw [relabel_numbered, converted] at renamed
  cases result : parse (numbered tokens) with
  | error error => simp [result] at renamed
  | ok out =>
      simp only [result, Except.ok.injEq] at renamed
      have runs := parse_runs result
      have labelled := labelled_mark_numbered tokens
      have members : ∀ i, i ∈ places out ↔
          ∃ token, tokens[i]? = some token ∧ token.value.isParen = false := by
        intro i
        rw [← mem_places_iff]
        exact (runs.perm.map _).mem_iff
      refine ⟨places out, runs.nodup ready_initial labelled, members, ?_, ?_⟩
      · rw [renamed, places, List.forall₂_map_left_iff, List.forall₂_map_right_iff,
          List.forall₂_same]
        exact fun symbol member => symbol_of_numbered (runs.perm.subset member)
      · intro i member j memberLater less
        obtain ⟨first, found, plain⟩ := (members i).mp member
        obtain ⟨later, foundLater, plainLater⟩ := (members j).mp memberLater
        obtain ⟨kind, reads, plain, there⟩ := reads_exists found plain
        obtain ⟨kindLater, _, plainLater, thereLater⟩ := reads_exists foundLater plainLater
        have law := runs.first_iff ready_initial labelled less there thereLater plain plainLater
        exact law.trans (goesFirst_iff _ (balanced_of_parse converted) less reads plain)

/-- In `(1+2)-3` the addition goes out at the end of its group, in front of the subtraction. -/
theorem emission_exact_groups :
    let place : Nat → Span := fun i => .sized i 1
    let sum : List Token := [⟨.paren .opening, place 0⟩, ⟨.number ['1'], place 1⟩,
      ⟨.operator (.binary .add), place 2⟩, ⟨.number ['2'], place 3⟩, ⟨.paren .closing, place 4⟩,
      ⟨.operator (.binary .sub), place 5⟩, ⟨.number ['3'], place 6⟩]
    let out : Postfix := [⟨.number ['1'], place 1⟩, ⟨.number ['2'], place 3⟩,
      ⟨.operator (.binary .add), place 2⟩, ⟨.number ['3'], place 6⟩,
      ⟨.operator (.binary .sub), place 5⟩]
    parse sum = .ok out ∧
    ∃ order : List Nat, order.Nodup ∧
      (∀ i, i ∈ order ↔ ∃ token, sum[i]? = some token ∧ token.value.isParen = false) ∧
      List.Forall₂ (Emits sum) order out ∧
      ∀ i ∈ order, ∀ j ∈ order, i < j → (order.idxOf i < order.idxOf j ↔ GoesFirst sum i j) := by
  intro place sum out
  have converted : parse sum = .ok out := by decide
  exact ⟨converted, emission_exact sum out converted⟩

end Rpn.Shunting
