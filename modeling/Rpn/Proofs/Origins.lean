import Rpn.Proofs.Emission
import Rpn.Proofs.Frames
/-!
Which token a symbol comes from. Places are carried along and never looked at, so when the place of
every token is its position, the places that come out are the positions of the tokens that the symbols
come from.
-/
namespace Rpn.Shunting

/-- The positions of the tokens that the symbols come from, in the order of the symbols. -/
def origins (tokens : List Token) : List Nat :=
  match parse (numbered tokens) with
  | .ok symbols => places symbols
  | .error _ => []

theorem origins_of_parse {tokens : List Token} {symbols : Postfix}
    (converted : parse (numbered tokens) = .ok symbols) : origins tokens = places symbols := by
  simp only [origins, converted]

theorem origins_once {tokens : List Token} {symbols : Postfix}
    (converted : parse (numbered tokens) = .ok symbols) : (origins tokens).Nodup := by
  rw [origins_of_parse converted]
  exact (parse_runs converted).nodup ready_initial (labelled_mark_numbered tokens)

theorem mem_origins_iff {tokens : List Token} {symbols : Postfix}
    (converted : parse (numbered tokens) = .ok symbols) (i : Nat) :
    i ∈ origins tokens ↔ ∃ token, tokens[i]? = some token ∧ token.value.isParen = false := by
  rw [origins_of_parse converted, ← mem_places_iff]
  exact ((parse_runs converted).perm.map _).mem_iff

/-- Every part of the output comes from the tokens that its places name. -/
theorem emits_places {tokens : List Token} {symbols part : Postfix}
    (converted : parse (numbered tokens) = .ok symbols) (within : part ⊆ symbols) :
    List.Forall₂ (Emits tokens) (places part) (part.map (Spanned.relabel (placeOf tokens))) := by
  rw [places, List.forall₂_map_left_iff, List.forall₂_map_right_iff, List.forall₂_same]
  intro symbol member
  exact symbol_of_numbered ((parse_runs converted).perm.subset (within member))

section Positions
variable {n : Nat} {front back tokens : List Token} {symbol : Spanned Symbol}

theorem Labelled.append (labelled : Labelled n (front ++ back)) :
    Labelled n front ∧ Labelled (n + front.length) back := by
  constructor
  · intro j token found
    have bound := (List.getElem?_eq_some_iff.mp found).1
    exact labelled j token (by rw [List.getElem?_append_left bound, found])
  · intro j token found
    have place := labelled (front.length + j) token (by simp [List.getElem?_append_right, found])
    omega

theorem Labelled.between (labelled : Labelled n tokens)
    (member : symbol ∈ tokens.filterMap Token.symbol?) :
    n ≤ symbol.span.lo ∧ symbol.span.lo < n + tokens.length := by
  obtain ⟨token, present, read⟩ := List.mem_filterMap.mp member
  obtain ⟨j, found⟩ := List.mem_iff_getElem?.mp present
  obtain ⟨value, _, rfl⟩ := Option.map_eq_some_iff.mp read
  have bound := (List.getElem?_eq_some_iff.mp found).1
  have place := labelled j token found
  dsimp only
  omega

end Positions

section Sources
variable {stack : Stack} {tokens : List Token} {symbol : Spanned Symbol}

theorem source_of_sent (member : symbol ∈ sent stack tokens) :
    symbol ∈ stack.held ∨ symbol ∈ tokens.filterMap Token.symbol? := by
  have conserved := (run_conserves stack tokens).subset (List.mem_append_left _ member)
  exact List.mem_append.mp conserved

theorem source_of_held (member : symbol ∈ (run stack tokens).1.held) :
    symbol ∈ stack.held ∨ symbol ∈ tokens.filterMap Token.symbol? := by
  have conserved := (run_conserves stack tokens).subset (List.mem_append_right _ member)
  exact List.mem_append.mp conserved

theorem source_of_drained (member : symbol ∈ drained stack tokens) :
    symbol ∈ stack.held ∨ symbol ∈ tokens.filterMap Token.symbol? := by
  rcases List.mem_append.mp member with gone | waiting
  · exact source_of_sent gone
  · apply source_of_held
    rw [Stack.held, Stack.layers, List.flatten_cons, List.map_append]
    exact List.mem_append_left _ waiting

end Sources

section Relabelling
variable (move : Span → Span) (stack : Stack) (tokens : List Token)

theorem sent_relabel : sent (stack.relabel move) (tokens.map (Spanned.relabel move)) =
    (sent stack tokens).map (Spanned.relabel move) := by
  rw [sent, run_relabel, symbols_relabel, sent]

theorem drained_relabel : drained (stack.relabel move) (tokens.map (Spanned.relabel move)) =
    (drained stack tokens).map (Spanned.relabel move) := by
  have waiting : ∀ ops : Layer, (ops.map (Spanned.relabel move)).map written =
      (ops.map written).map (Spanned.relabel move) := by
    intro ops
    rw [List.map_map, List.map_map]
    rfl
  rw [drained, drained, sent_relabel, run_relabel, List.map_append, ← waiting]
  rfl

end Relabelling

end Rpn.Shunting
