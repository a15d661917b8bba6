import Rpn.Proofs.Emission
import Rpn.Proofs.SingleStack
/-!
What is pending behind any number of tokens. Read from the bottom to the top, the stack lists tokens
in the order of the text: the parentheses that are still without a partner, closing ones before
opening ones, and between two of them operators whose ranks never fall. Every other token that is no
parenthesis has gone out, the numbers among them in their order.
-/
namespace Rpn

def Token.paren? (token : Token) : Option (Spanned Side) :=
  token.value.side?.map fun side => ⟨side, token.span⟩

theorem Token.paren?_eq_some_iff {token : Token} {paren : Spanned Side} :
    token.paren? = some paren ↔ token = paren.map Kind.paren := by
  obtain ⟨kind, place⟩ := token
  obtain ⟨side, start⟩ := paren
  cases kind <;> simp [Token.paren?, Kind.side?, Spanned.map]

theorem Token.isParen_iff {token : Token} :
    token.value.isParen = true ↔ ∃ paren : Spanned Side, token = paren.map Kind.paren := by
  constructor
  · intro plain
    obtain ⟨kind, place⟩ := token
    cases kind with
    | paren side => exact ⟨⟨side, place⟩, rfl⟩
    | number lexeme => contradiction
    | operator op => contradiction
  · rintro ⟨paren, rfl⟩
    rfl

namespace Shunting

open Brackets
open scoped List

section Entries

theorem stacked_symbols (layer : Layer) :
    (stacked layer).filterMap Token.symbol? = (layer.map written).reverse := by
  rw [stacked, List.filterMap_reverse, List.filterMap_map]
  exact congrArg List.reverse (congrFun List.filterMap_eq_map layer)

theorem stacked_parens (layer : Layer) : (stacked layer).filterMap Token.paren? = [] := by
  rw [List.filterMap_eq_nil_iff]
  intro entry member
  obtain ⟨op, _, rfl⟩ := List.mem_map.mp (List.mem_reverse.mp member)
  rfl

theorem entries_symbols (stack : Stack) :
    stack.entries.filterMap Token.symbol? = stack.held.reverse := by
  obtain ⟨waiting, groups⟩ := stack
  induction groups generalizing waiting with
  | nil => simp [Stack.entries, below, stacked_symbols, Stack.held, Stack.layers]
  | cons group outer ih =>
      have wall : Token.symbol? (group.paren.map Kind.paren) = none := rfl
      rw [entries_enclosed, List.filterMap_append, ih, List.filterMap_cons_none wall, stacked_symbols]
      simp [Stack.held, Stack.layers]

theorem entries_parens (stack : Stack) :
    stack.entries.filterMap Token.paren? = (stack.groups.map Group.paren).reverse := by
  obtain ⟨waiting, groups⟩ := stack
  induction groups generalizing waiting with
  | nil => simp [Stack.entries, below, stacked_parens]
  | cons group outer ih =>
      have wall : Token.paren? (group.paren.map Kind.paren) = some group.paren := rfl
      rw [entries_enclosed, List.filterMap_append, ih, List.filterMap_cons_some wall, stacked_parens]
      simp

theorem entries_number (stack : Stack) : ∀ entry ∈ stack.entries, entry.value.isNumber = false := by
  have plain : ∀ layer, ∀ entry ∈ stacked layer, entry.value.isNumber = false := by
    intro layer entry member
    obtain ⟨op, _, rfl⟩ := List.mem_map.mp (List.mem_reverse.mp member)
    rfl
  obtain ⟨waiting, groups⟩ := stack
  induction groups generalizing waiting with
  | nil => exact plain waiting
  | cons group outer ih =>
      intro entry member
      rw [entries_enclosed] at member
      rcases List.mem_append.mp member with under | above
      · exact ih _ entry under
      · rcases List.mem_cons.mp above with same | top
        · rw [same]
          rfl
        · exact plain waiting entry top

-- A token leaves what lies under it in place and comes to stand on top, if it stays at all.
theorem step_entries (stack : Stack) (token : Token) :
    (step stack token).1.entries.Sublist (stack.entries ++ [token]) := by
  obtain ⟨kind, place⟩ := token
  obtain ⟨waiting, groups⟩ := stack
  rcases kind with lexeme | op | side
  · exact List.sublist_append_left _ _
  · have kept : (stacked (waiting.dropWhile (Stack.yieldsTo ⟨op, place⟩))).Sublist (stacked waiting) :=
      ((List.dropWhile_sublist _).map _).reverse
    have grown : stacked (⟨op, place⟩ :: waiting.dropWhile (Stack.yieldsTo ⟨op, place⟩)) =
        stacked (waiting.dropWhile (Stack.yieldsTo ⟨op, place⟩)) ++ [⟨.operator op, place⟩] := by
      rw [stacked, List.map_cons, List.reverse_cons]
      rfl
    simp only [step, Stack.hold, Stack.entries, grown, ← List.append_assoc]
    exact (kept.append_left _).append_right _
  · cases side with
    | opening =>
        simp only [step, Stack.openGroup]
        rw [entries_enclosed]
        exact List.Sublist.refl _
    | closing =>
        have unmatched : (Stack.mk [] (⟨⟨.closing, place⟩, []⟩ :: groups)).entries.Sublist
            ((Stack.mk waiting groups).entries ++ [⟨.paren .closing, place⟩]) := by
          rw [entries_enclosed]
          refine List.Sublist.append_right ?_ _
          rw [Stack.entries, Stack.entries]
          exact (List.nil_sublist _).append_left _
        rcases groups with _ | ⟨⟨⟨side, start⟩, outside⟩, groups⟩
        · exact unmatched
        · cases side with
          | closing => exact unmatched
          | opening =>
              rw [entries_enclosed, List.append_assoc]
              exact List.sublist_append_left _ _

theorem run_entries (stack : Stack) (tokens : List Token) :
    (run stack tokens).1.entries.Sublist (stack.entries ++ tokens) := by
  induction tokens generalizing stack with
  | nil => simp [run]
  | cons token rest ih =>
      have now := (step_entries stack token).append_right rest
      rw [List.append_assoc, List.singleton_append] at now
      exact (ih (step stack token).1).trans now

end Entries

section Parentheses

/-- No closing parenthesis is left over inside an opening one. -/
def Barred (parens : List (Spanned Side)) : Prop :=
  parens.Pairwise fun inner outer => inner.value = .closing → outer.value = .closing

theorem settle_barred {parens : List (Spanned Side)} (barred : Barred parens) (token : Token) :
    Barred (settle parens token) := by
  obtain ⟨kind, place⟩ := token
  rcases kind with lexeme | op | side
  · exact barred
  · exact barred
  · cases side with
    | opening => exact List.pairwise_cons.mpr ⟨fun outer _ closing => by contradiction, barred⟩
    | closing =>
        rcases parens with _ | ⟨⟨side, start⟩, outer⟩
        · exact List.pairwise_singleton _ _
        · obtain ⟨first, others⟩ := List.pairwise_cons.mp barred
          cases side with
          | opening => exact others
          | closing =>
              refine List.pairwise_cons.mpr ⟨fun paren member _ => ?_, barred⟩
              rcases List.mem_cons.mp member with same | old
              · rw [same]
              · exact first paren old rfl

theorem run_barred {stack : Stack} (barred : Barred (stack.groups.map Group.paren))
    (tokens : List Token) : Barred ((run stack tokens).1.groups.map Group.paren) := by
  induction tokens generalizing stack with
  | nil => exact barred
  | cons token rest ih =>
      apply ih
      rw [step_parens]
      exact settle_barred barred token

theorem entries_barred {stack : Stack} (barred : Barred (stack.groups.map Group.paren)) :
    stack.entries.Pairwise fun lower upper =>
      upper.value = .paren .closing → lower.value ≠ .paren .opening := by
  have sides := List.pairwise_reverse.mpr barred
  rw [← entries_parens, List.pairwise_filterMap] at sides
  refine sides.imp fun {lower upper} apart closing opening => ?_
  have both := apart ⟨.opening, lower.span⟩ (by simp [Token.paren?, opening, Kind.side?])
    ⟨.closing, upper.span⟩ (by simp [Token.paren?, closing, Kind.side?]) rfl
  contradiction

theorem Layout.unmatched_iff {tokens : List Token} {entries : List (Nat × Spanned Side)}
    (layout : Layout tokens tokens.length entries) (i : Nat) :
    (∃ entry ∈ entries, entry.1 = i) ↔ Unmatched (outline tokens) i := by
  constructor
  · rintro ⟨entry, member, rfl⟩
    obtain ⟨before, found⟩ := layout.entry member
    have here : (outline tokens)[entry.1]? = some (some entry.2.value) := by
      rw [outline_getElem?, found]
      rfl
    refine ⟨⟨_, here⟩, fun other pair => ?_⟩
    obtain ⟨side, paren⟩ := pair.symm.paren
    exact (layout.unpaired_iff before here).mp ⟨entry, member, rfl⟩ other (outline_bound paren) pair
  · rintro ⟨⟨side, paren⟩, free⟩
    exact (layout.unpaired_iff (outline_bound paren) paren).mpr fun other _ => free other

end Parentheses

section Ranks

theorem step_ranked {stack : Stack} (ranked : Ranked stack.layers) (token : Token) :
    Ranked (step stack token).1.layers := by
  obtain ⟨kind, place⟩ := token
  obtain ⟨waiting, groups⟩ := stack
  rcases kind with lexeme | op | side
  · exact ranked
  · exact (@Move.operator waiting (groups.map Group.outside) op place).ranked ranked
  · cases side with
    | opening => exact (@Move.opening _ place).ranked ranked
    | closing =>
        have around := (List.forall_mem_cons.mp ranked).2
        have unmatched : Ranked ([] :: [] :: groups.map Group.outside) :=
          List.forall_mem_cons.mpr ⟨.nil, List.forall_mem_cons.mpr ⟨.nil, around⟩⟩
        rcases groups with _ | ⟨⟨⟨side, start⟩, outside⟩, groups⟩
        · exact unmatched
        · cases side with
          | opening => exact around
          | closing => exact unmatched

theorem run_ranked {stack : Stack} (ranked : Ranked stack.layers) (tokens : List Token) :
    Ranked (run stack tokens).1.layers := by
  induction tokens generalizing stack with
  | nil => exact ranked
  | cons token rest ih => exact ih (step_ranked ranked token)

/-- Both are operators, and the upper one ranks no lower. -/
def RankUp (lower upper : Token) : Prop :=
  ∃ low high, lower.value.rank? = some low ∧ upper.value.rank? = some high ∧ low ≤ high

theorem stacked_ranked {layer : Layer}
    (ranked : layer.Pairwise fun later op => op.value.rank ≤ later.value.rank) :
    (stacked layer).Pairwise RankUp := by
  rw [stacked, List.pairwise_reverse, List.pairwise_map]
  exact ranked.imp fun {later op} lower => ⟨op.value.rank, later.value.rank, rfl, rfl, lower⟩

-- A stretch without the wall lies on one side of it.
theorem stretch_beside {α : Type} {level left right : List α} {wall : α}
    (inside : level <:+: left ++ wall :: right) (absent : wall ∉ level) :
    level <:+: left ∨ level <:+: right := by
  obtain ⟨front, back, same⟩ := inside
  rcases List.append_eq_append_iff.mp same with ⟨middle, before, _⟩ | ⟨middle, before, behind⟩
  · exact .inl ⟨front, middle, before.symm⟩
  · cases middle with
    | nil => exact .inl ⟨front, [], by simpa using before⟩
    | cons first middle =>
        obtain ⟨rfl, rest⟩ := List.cons.inj behind
        rcases List.append_eq_append_iff.mp before with ⟨more, _, split⟩ | ⟨more, _, split⟩
        · exact absurd (split ▸ List.mem_append_right _ List.mem_cons_self) absent
        · cases more with
          | nil =>
              rw [List.nil_append] at split
              exact absurd (split ▸ List.mem_cons_self) absent
          | cons other more =>
              refine .inr ⟨more, back, ?_⟩
              rw [rest, (List.cons.inj split).2]
              rfl

theorem entries_ranked {stack : Stack} (ranked : Ranked stack.layers) {level : List Token}
    (inside : level <:+: stack.entries) (plain : ∀ entry ∈ level, entry.value.isParen = false) :
    level.Pairwise RankUp := by
  obtain ⟨waiting, groups⟩ := stack
  have top : level <:+: stacked waiting → level.Pairwise RankUp := fun within =>
    (stacked_ranked (ranked waiting List.mem_cons_self)).sublist within.sublist
  induction groups generalizing waiting with
  | nil => exact top (by simpa [Stack.entries, below] using inside)
  | cons group outer ih =>
      rw [entries_enclosed] at inside
      have absent : group.paren.map Kind.paren ∉ level := by
        intro member
        have paren := plain _ member
        contradiction
      rcases stretch_beside inside absent with under | above
      · have around := (List.forall_mem_cons.mp ranked).2
        refine ih group.outside around under fun within => ?_
        exact (stacked_ranked (ranked group.outside (by simp [Stack.layers]))).sublist within.sublist
      · exact top above

end Ranks

section Numerals

def isNumeral (symbol : Spanned Symbol) : Bool :=
  match symbol.value with
  | .number _ => true
  | .operator _ => false

theorem numerals_written (ops : Layer) : (ops.map written).filter isNumeral = [] := by
  rw [List.filter_eq_nil_iff]
  intro symbol member
  obtain ⟨op, _, rfl⟩ := List.mem_map.mp member
  simp [written, Spanned.map, isNumeral]

theorem step_numerals (stack : Stack) (token : Token) :
    ((step stack token).2.filterMap Action.symbol?).filter isNumeral =
      token.symbol?.toList.filter isNumeral := by
  obtain ⟨kind, place⟩ := token
  rcases kind with lexeme | op | side
  · rfl
  · rw [step, symbols_hold, numerals_written]
    rfl
  · cases side with
    | opening => rfl
    | closing =>
        have unmatched : ([Action.unmatched place].filterMap Action.symbol?).filter isNumeral = [] :=
          rfl
        obtain ⟨waiting, groups⟩ := stack
        rcases groups with _ | ⟨⟨⟨side, start⟩, outside⟩, groups⟩
        · simp only [step, Stack.closeGroup, List.filterMap_append, List.filter_append,
            symbols_released, numerals_written, unmatched]
          rfl
        · cases side <;>
            simp only [step, Stack.closeGroup, List.filterMap_append, List.filter_append,
              symbols_released, numerals_written, unmatched] <;>
            rfl

-- A number goes out as soon as it arrives, and nothing else that goes out is a number.
theorem sent_numerals (stack : Stack) (tokens : List Token) :
    (sent stack tokens).filter isNumeral = (tokens.filterMap Token.symbol?).filter isNumeral := by
  induction tokens generalizing stack with
  | nil => rfl
  | cons token rest ih =>
      rw [sent, run, List.filterMap_append, List.filter_append, step_numerals, symbols_cons,
        List.filter_append, ← ih (step stack token).1, sent]

end Numerals

/-! As for the output, the tokens are numbered first, so that the places on the stack are positions. -/
section Positions

theorem entries_relabel (move : Span → Span) (stack : Stack) :
    (stack.relabel move).entries = stack.entries.map (Spanned.relabel move) := by
  have layer : ∀ layer : Layer,
      stacked (layer.map (Spanned.relabel move)) = (stacked layer).map (Spanned.relabel move) := by
    intro layer
    simp [stacked, Function.comp_def, Spanned.relabel_map]
  obtain ⟨waiting, groups⟩ := stack
  induction groups generalizing waiting with
  | nil => exact layer waiting
  | cons group outer ih =>
      have inner : (Stack.mk group.outside outer).relabel move =
          Stack.mk (group.outside.map (Spanned.relabel move)) (outer.map (Group.relabel move)) := rfl
      have enclosed := ih group.outside
      rw [inner] at enclosed
      rw [Stack.relabel, List.map_cons, entries_enclosed, entries_enclosed, layer, List.map_append,
        List.map_cons, ← enclosed]
      rfl

def positions (entries : List Token) : List Nat := entries.map fun entry => entry.span.lo

theorem places_symbols (entries : List Token) : places (entries.filterMap Token.symbol?) =
    positions (entries.filter fun entry => !entry.value.isParen) := by
  induction entries with
  | nil => rfl
  | cons entry rest ih =>
      obtain ⟨kind, place⟩ := entry
      cases kind with
      | paren side => exact ih
      | number lexeme => exact congrArg (place.lo :: ·) ih
      | operator op => exact congrArg (place.lo :: ·) ih

theorem Labelled.rising {n : Nat} {tokens : List Token} (labelled : Labelled n tokens) :
    (positions tokens).Pairwise (· < ·) := by
  rw [positions, List.pairwise_map, List.pairwise_iff_getElem]
  intro i j before behind less
  have first := labelled i _ (List.getElem?_eq_getElem before)
  have second := labelled j _ (List.getElem?_eq_getElem behind)
  omega

def plainAt (tokens : List Token) (i : Nat) : Bool :=
  tokens[i]?.any fun token => !token.value.isParen

def parenAt (tokens : List Token) (i : Nat) : Bool :=
  tokens[i]?.any fun token => token.value.isParen

def numberAt (tokens : List Token) (i : Nat) : Bool :=
  tokens[i]?.any fun token => token.value.isNumber

/-- The token at position `i`, at its own place and with every minus read as it stands. -/
def StandsFor (tokens : List Token) (i : Nat) (entry : Token) : Prop :=
  ∃ token, tokens[i]? = some token ∧ Negation.Reads tokens i entry.value ∧ entry.span = token.span

/-- The first `k` tokens with their positions for places. -/
def lead (tokens : List Token) (k : Nat) : List Token := (Negation.mark (numbered tokens)).take k

section Lead
variable {tokens : List Token} {k : Nat}

theorem run_lead (tokens : List Token) (k : Nat) : run {} ((Negation.mark tokens).take k) =
    ((run {} (lead tokens k)).1.relabel (placeOf tokens),
      (run {} (lead tokens k)).2.map (Action.relabel (placeOf tokens))) := by
  have marked := Negation.mark_relabel (placeOf tokens) (numbered tokens)
  rw [relabel_numbered] at marked
  rw [marked, ← List.map_take]
  exact run_relabel (placeOf tokens) {} (lead tokens k)

theorem labelled_lead (tokens : List Token) (k : Nat) : Labelled 0 (lead tokens k) := by
  intro i token found
  rw [lead, List.getElem?_take] at found
  split at found
  · exact labelled_mark_numbered tokens i token found
  · contradiction

theorem outline_lead (tokens : List Token) (k : Nat) :
    outline (lead tokens k) = outline (tokens.take k) := by
  have whole := congrArg (List.take k) (outline_mark_numbered tokens)
  rw [outline, outline, ← List.map_take, ← List.map_take] at whole
  exact whole

theorem mem_lead_iff {entry : Token} : entry ∈ lead tokens k ↔
    ∃ i, i < k ∧ Negation.kindAt (Negation.mark tokens) i = some entry.value ∧
      entry.span = .sized i 0 := by
  rw [lead, List.mem_iff_getElem?]
  constructor
  · rintro ⟨i, found⟩
    rw [List.getElem?_take] at found
    split at found
    · rename_i bound
      rw [mark_numbered_getElem?] at found
      obtain ⟨kind, reads, rfl⟩ := Option.map_eq_some_iff.mp found
      exact ⟨i, bound, reads, rfl⟩
    · contradiction
  · rintro ⟨i, bound, reads, place⟩
    refine ⟨i, ?_⟩
    rw [List.getElem?_take_of_lt bound, mark_numbered_getElem?, reads, Option.map_some, ← place]

-- What is known about a token among the first holds of the token at its position.
theorem lead_token {entry : Token} (member : entry ∈ lead tokens k) :
    entry.span.lo < k ∧ ∃ token, tokens[entry.span.lo]? = some token ∧
      Negation.Reads tokens entry.span.lo entry.value ∧
      entry.value.isParen = token.value.isParen ∧
      placeOf tokens entry.span = token.span := by
  obtain ⟨i, bound, reads, place⟩ := mem_lead_iff.mp member
  have here : entry.span.lo = i := by rw [place]; rfl
  rw [here]
  obtain ⟨marked, there, _⟩ := Option.map_eq_some_iff.mp reads
  rw [Negation.mark_getElem?] at there
  obtain ⟨token, found, _⟩ := Option.map_eq_some_iff.mp there
  refine ⟨bound, token, found, (Negation.reads_iff tokens i _).mpr reads,
    isParen_of_reads found reads, ?_⟩
  rw [placeOf, here, found]
  rfl

theorem plainAt_lead {entry : Token} (member : entry ∈ lead tokens k) :
    plainAt tokens entry.span.lo = !entry.value.isParen := by
  obtain ⟨_, token, found, _, same, _⟩ := lead_token member
  simp [plainAt, found, same]

theorem parenAt_lead {entry : Token} (member : entry ∈ lead tokens k) :
    parenAt tokens entry.span.lo = entry.value.isParen := by
  obtain ⟨_, token, found, _, same, _⟩ := lead_token member
  simp [parenAt, found, same]

theorem positions_plain {entries : List Token} (known : ∀ entry ∈ entries, entry ∈ lead tokens k) :
    (positions entries).filter (plainAt tokens) = places (entries.filterMap Token.symbol?) := by
  rw [places_symbols, positions, List.filter_map]
  exact congrArg positions (List.filter_congr fun entry member => plainAt_lead (known entry member))

/-- Each position of a token that is no parenthesis, once. -/
theorem lead_plain (tokens : List Token) (k : Nat) :
    (places ((lead tokens k).filterMap Token.symbol?)).Perm
      ((List.range k).filter (plainAt tokens)) := by
  rw [← positions_plain fun entry member => member]
  have rising := (labelled_lead tokens k).rising
  refine (List.perm_ext_iff_of_nodup ((rising.imp Nat.ne_of_lt).filter _)
    (List.nodup_range.filter _)).mpr fun i => ?_
  rw [List.mem_filter, List.mem_filter, List.mem_range]
  refine and_congr_left fun plain => ?_
  constructor
  · intro member
    obtain ⟨entry, there, rfl⟩ := List.mem_map.mp member
    exact (lead_token there).1
  · intro bound
    cases found : tokens[i]? with
    | none => simp [plainAt, found] at plain
    | some token =>
        have reads := Negation.kindAt_mark found
        exact List.mem_map.mpr ⟨⟨_, .sized i 0⟩, mem_lead_iff.mpr ⟨i, bound, reads, rfl⟩, rfl⟩

theorem entries_lead {entry : Token} (member : entry ∈ (run {} (lead tokens k)).1.entries) :
    entry ∈ lead tokens k :=
  (run_entries {} (lead tokens k)).subset member

theorem entries_stand {entry : Token} (member : entry ∈ lead tokens k) :
    StandsFor tokens entry.span.lo (entry.relabel (placeOf tokens)) := by
  obtain ⟨_, token, found, reads, _, place⟩ := lead_token member
  exact ⟨token, found, reads, place⟩

theorem sent_lead {symbol : Spanned Symbol} (member : symbol ∈ sent {} (lead tokens k)) :
    symbol ∈ (lead tokens k).filterMap Token.symbol? :=
  (run_conserves {} (lead tokens k)).subset (List.mem_append_left _ member)

theorem numberAt_sent {symbol : Spanned Symbol} (member : symbol ∈ sent {} (lead tokens k)) :
    numberAt tokens symbol.span.lo = isNumeral symbol := by
  obtain ⟨entry, there, read⟩ := List.mem_filterMap.mp (sent_lead member)
  obtain ⟨value, valued, rfl⟩ := Option.map_eq_some_iff.mp read
  obtain ⟨_, token, found, reads, _, _⟩ := lead_token there
  have number := number_iff reads
  simp only [Negation.kindAt, found, Option.map_some, Option.some.injEq] at number
  have same : token.value.isNumber = entry.value.isNumber := by
    rw [Bool.eq_iff_iff, number]
    cases token.value <;> simp [Kind.isNumber]
  rw [numberAt, found, Option.any_some, same]
  cases known : entry.value with
  | paren side => simp [known, Kind.symbol?] at valued
  | number lexeme =>
      obtain rfl : Symbol.number lexeme = value := by simpa [known, Kind.symbol?] using valued
      rfl
  | operator op =>
      obtain rfl : Symbol.operator op = value := by simpa [known, Kind.symbol?] using valued
      rfl

/-- What has gone out and the operators that stand on the stack are all tokens that are no
parentheses, each once. -/
theorem lead_conserved (tokens : List Token) (k : Nat) :
    (places (sent {} (lead tokens k)) ++
      (positions (run {} (lead tokens k)).1.entries).filter (plainAt tokens)).Perm
      ((List.range k).filter (plainAt tokens)) := by
  rw [positions_plain fun entry member => entries_lead member, entries_symbols, ← places_append]
  have conserved := run_conserves {} (lead tokens k)
  calc places (sent {} (lead tokens k) ++ (run {} (lead tokens k)).1.held.reverse)
    _ ~ places (sent {} (lead tokens k) ++ (run {} (lead tokens k)).1.held) :=
        ((List.reverse_perm _).append_left _).map _
    _ ~ places ((lead tokens k).filterMap Token.symbol?) := conserved.map _
    _ ~ (List.range k).filter (plainAt tokens) := lead_plain tokens k

theorem lead_unmatched (tokens : List Token) (k : Nat) (i : Nat) :
    i ∈ (positions (run {} (lead tokens k)).1.entries).filter (parenAt tokens) ↔
      Unmatched (outline (tokens.take k)) i := by
  obtain ⟨left, layout, held⟩ := layout_run (lead tokens k) (lead tokens k).length (Nat.le_refl _)
  rw [List.take_length] at held
  rw [← outline_lead, ← layout.unmatched_iff, List.mem_filter]
  have placed : ∀ entry ∈ left, entry.2.span.lo = entry.1 := by
    intro entry member
    have place := labelled_lead tokens k _ _ (layout.entry member).2
    rwa [Nat.zero_add] at place
  constructor
  · rintro ⟨member, paren⟩
    obtain ⟨entry, there, rfl⟩ := List.mem_map.mp member
    rw [parenAt_lead (entries_lead there)] at paren
    obtain ⟨paren, same⟩ := Token.isParen_iff.mp paren
    have stands := List.mem_filterMap.mpr ⟨entry, there, Token.paren?_eq_some_iff.mpr same⟩
    rw [entries_parens, List.mem_reverse, held] at stands
    obtain ⟨old, member, rfl⟩ := List.mem_map.mp stands
    refine ⟨old, member, ?_⟩
    rw [same]
    exact (placed old member).symm
  · rintro ⟨entry, member, rfl⟩
    have stands : entry.2 ∈ (run {} (lead tokens k)).1.entries.filterMap Token.paren? := by
      rw [entries_parens, List.mem_reverse, held]
      exact List.mem_map_of_mem member
    obtain ⟨token, there, read⟩ := List.mem_filterMap.mp stands
    obtain rfl := Token.paren?_eq_some_iff.mp read
    rw [← placed entry member]
    exact ⟨List.mem_map.mpr ⟨_, there, rfl⟩, parenAt_lead (entries_lead there)⟩

theorem lead_numerals (tokens : List Token) (k : Nat) :
    ((places (sent {} (lead tokens k))).filter (numberAt tokens)).Pairwise (· < ·) := by
  have rising := (labelled_lead tokens k).symbols.1
  have numerals : (sent {} (lead tokens k)).filter (numberAt tokens ∘ fun symbol => symbol.span.lo) =
      (sent {} (lead tokens k)).filter isNumeral :=
    List.filter_congr fun symbol member => numberAt_sent member
  rw [places, List.filter_map, numerals, sent_numerals]
  exact rising.sublist (List.filter_sublist.map _)

end Lead

end Positions

/-- After `k` turns of a yard no number stands on its stack, no closing parenthesis above an opening
one, and where no parenthesis stands between operators their ranks do not fall. The entries come from
increasing positions of the text; the parentheses among them are those without a partner in the
first `k` tokens, and the operators together with what has gone out are all other tokens, each once.
The numbers went out in their order. -/
theorem pending_exact (tokens : List Token) (k : Nat) :
    let yard := Yard.turns { tokens } k
    let stack := yard.stack.reverse
    (∀ entry ∈ stack, entry.value.isNumber = false) ∧
    (stack.Pairwise fun lower upper =>
      upper.value = .paren .closing → lower.value ≠ .paren .opening) ∧
    (∀ level, level <:+: stack → (∀ entry ∈ level, entry.value.isParen = false) →
      level.Pairwise RankUp) ∧
    ∃ held gone : List Nat,
      List.Forall₂ (StandsFor tokens) held stack ∧
      List.Forall₂ (Emits tokens) gone yard.output ∧
      held.Pairwise (· < ·) ∧
      (∀ i, i ∈ held.filter (parenAt tokens) ↔ Unmatched (outline (tokens.take k)) i) ∧
      (gone ++ held.filter (plainAt tokens)) ~ (List.range k).filter (plainAt tokens) ∧
      (gone.filter (numberAt tokens)).Pairwise (· < ·) := by
  intro yard stack
  have holds := (turns_turned tokens k).holds
  have same : stack = (run {} ((Negation.mark tokens).take k)).1.entries :=
    (congrArg List.reverse holds.stack).trans (List.reverse_reverse _)
  have out : yard.output = sent {} ((Negation.mark tokens).take k) := holds.output
  have free : Barred ((Stack.groups {}).map Group.paren) := .nil
  have initial : Ranked (Stack.layers {}) := ready_initial.ranked
  rw [same, out]
  refine ⟨entries_number _, entries_barred (run_barred free _), ?_, ?_⟩
  · exact fun level inside plain => entries_ranked (run_ranked initial _) inside plain
  · have relabelled := run_lead tokens k
    have standing := congrArg Stack.entries (congrArg Prod.fst relabelled)
    have emitted : sent {} ((Negation.mark tokens).take k) =
        (sent {} (lead tokens k)).map (Spanned.relabel (placeOf tokens)) := by
      rw [sent, sent, ← symbols_relabel]
      exact congrArg (List.filterMap Action.symbol?) (congrArg Prod.snd relabelled)
    rw [entries_relabel] at standing
    refine ⟨positions (run {} (lead tokens k)).1.entries, places (sent {} (lead tokens k)),
      ?_, ?_, ?_, lead_unmatched tokens k, lead_conserved tokens k, lead_numerals tokens k⟩
    · rw [standing, positions, List.forall₂_map_left_iff, List.forall₂_map_right_iff,
        List.forall₂_same]
      exact fun entry member => entries_stand (entries_lead member)
    · rw [emitted, places, List.forall₂_map_left_iff, List.forall₂_map_right_iff, List.forall₂_same]
      exact fun symbol member =>
        symbol_of_numbered (((List.take_sublist _ _).filterMap _).subset (sent_lead member))
    · exact (labelled_lead tokens k).rising.sublist ((run_entries {} (lead tokens k)).map _)

end Shunting

end Rpn
