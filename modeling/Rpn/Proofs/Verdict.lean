import Rpn.Proofs.Layers
import Rpn.Proofs.Marking
/-!
What the conversion says about parentheses. Behind every prefix of the tokens the groups that are
open are the parentheses that have no partner in the prefix, the latest first, and each stretch
between two of them is balanced. So the conversion fails exactly where a parenthesis has no partner
at all, and it names the last one of these.
-/
namespace Rpn.Shunting

open Brackets

/-- The parentheses left over behind the first `n` tokens, innermost first, with their positions. No
closing one lies inside a group. -/
inductive Layout (tokens : List Token) : Nat → List (Nat × Spanned Side) → Prop where
  | base {n} (inside : Balanced (stretch (outline tokens) 0 n)) : Layout tokens n []
  | left {k n paren outer} (around : Layout tokens k outer) (before : k < n)
      (found : tokens[k]? = some ⟨.paren paren.value, paren.span⟩)
      (inside : Balanced (stretch (outline tokens) (k + 1) n))
      (barred : paren.value = .closing → ∀ entry ∈ outer, entry.2.value = .closing) :
      Layout tokens n ((k, paren) :: outer)

section Prefixes
variable {tokens : List Token}

theorem outline_getElem? (tokens : List Token) (i : Nat) :
    (outline tokens)[i]? = tokens[i]?.map fun token => token.value.side? := by
  simp [outline]

theorem outline_bound {k : Nat} {side : Option Side} (paren : (outline tokens)[k]? = some side) :
    k < tokens.length := by
  rw [← List.length_map fun token : Token => token.value.side?]
  exact (List.getElem?_eq_some_iff.mp paren).1

theorem Layout.extend {n later : Nat} {entries : List (Nat × Spanned Side)}
    (layout : Layout tokens n entries) (grows : n ≤ later)
    (inside : Balanced (stretch (outline tokens) n later)) : Layout tokens later entries := by
  cases layout with
  | base front =>
      apply Layout.base
      rw [stretch_cut _ (Nat.zero_le n) grows]
      exact front.append inside
  | left around before found front barred =>
      refine .left around (Nat.lt_of_lt_of_le before grows) found ?_ barred
      rw [stretch_cut _ before grows]
      exact front.append inside

theorem Layout.entry {n : Nat} {entries : List (Nat × Spanned Side)}
    (layout : Layout tokens n entries) {entry : Nat × Spanned Side} (member : entry ∈ entries) :
    entry.1 < n ∧ tokens[entry.1]? = some ⟨.paren entry.2.value, entry.2.span⟩ := by
  induction layout with
  | base => simp at member
  | left around before found inside barred ih =>
      rcases List.mem_cons.mp member with same | old
      · subst same
        exact ⟨before, found⟩
      · exact ⟨Nat.lt_trans (ih old).1 before, (ih old).2⟩

-- In front of a left over parenthesis nothing has its partner at that parenthesis or behind it.
theorem Layout.apart {n spot : Nat} {left : Spanned Side} {outer : List (Nat × Spanned Side)}
    (around : Layout tokens spot outer)
    (here : (outline tokens)[spot]? = some (some left.value))
    (inside : Balanced (stretch (outline tokens) (spot + 1) n))
    (barred : left.value = .closing → ∀ entry ∈ outer, entry.2.value = .closing)
    (free : ∀ k side, k < spot → (outline tokens)[k]? = some (some side) →
      (∀ other, other < spot → ¬ Paired (outline tokens) k other) →
      ∃ entry ∈ outer, entry.1 = k)
    {p q : Nat} (front : p < spot) (back : spot ≤ q) (bound : q < n) :
    ¬ Paired (outline tokens) p q := by
  intro pair
  rcases Nat.eq_or_lt_of_le back with same | behind
  · subst same
    have partners : Partners (outline tokens) p spot := by
      rcases pair with pair | pair
      · exact pair
      · exact absurd pair.ordered (Nat.lt_asymm front)
    have closing : left.value = .closing := by
      have both := here.symm.trans partners.closes
      simpa using both
    have alone : ∀ other, other < spot → ¬ Paired (outline tokens) p other := by
      intro other less second
      exact absurd (paired_unique pair second) (Nat.ne_of_gt less)
    obtain ⟨entry, member, position⟩ := free p .opening front partners.opens alone
    have opened := (around.entry member).2
    rw [barred closing entry member, position] at opened
    have both := partners.opens
    rw [outline_getElem?, opened] at both
    simp [Kind.side?] at both
  · have stays := (paired_stays inside pair.symm behind bound).1
    omega

/-- The entries of a layout are the parentheses without a partner in the prefix. -/
theorem Layout.unpaired_iff {n : Nat} {entries : List (Nat × Spanned Side)}
    (layout : Layout tokens n entries) {k : Nat} {side : Side} (bound : k < n)
    (paren : (outline tokens)[k]? = some (some side)) :
    (∃ entry ∈ entries, entry.1 = k) ↔ ∀ other, other < n → ¬ Paired (outline tokens) k other := by
  induction layout generalizing k side with
  | @base n inside =>
      obtain ⟨other, _, less, pair⟩ := paired_inside inside (Nat.zero_le k) bound paren
      constructor
      · rintro ⟨entry, member, _⟩
        simp at member
      · intro free
        exact absurd pair (free other less)
  | @left spot n left outer around before found inside barred ih =>
      have here : (outline tokens)[spot]? = some (some left.value) := by
        rw [outline_getElem?, found]
        rfl
      have apart : ∀ p q, p < spot → spot ≤ q → q < n → ¬ Paired (outline tokens) p q := by
        intro p q front back less
        exact around.apart here inside barred (fun k side less found free => (ih less found).mpr free)
          front back less
      rcases Nat.lt_trichotomy k spot with front | same | behind
      · have old : (∃ entry ∈ (spot, left) :: outer, entry.1 = k) ↔ ∃ entry ∈ outer, entry.1 = k := by
          simp [Nat.ne_of_gt front]
        rw [old, ih front paren]
        constructor
        · intro free other less
          by_cases early : other < spot
          · exact free other early
          · exact apart k other front (Nat.le_of_not_lt early) less
        · intro free other less
          exact free other (Nat.lt_trans less before)
      · subst same
        constructor
        · intro _ other less pair
          rcases Nat.lt_trichotomy other k with early | itself | late
          · exact apart other k early (Nat.le_refl k) bound pair.symm
          · subst itself
            rcases pair with pair | pair <;> exact absurd pair.ordered (Nat.lt_irrefl _)
          · have stays := (paired_stays inside pair.symm late less).1
            omega
        · intro _
          exact ⟨(k, left), List.mem_cons_self, rfl⟩
      · obtain ⟨other, _, less, pair⟩ := paired_inside inside behind bound paren
        constructor
        · rintro ⟨entry, member, position⟩
          rcases List.mem_cons.mp member with same | old
          · rw [same] at position
            omega
          · have := (around.entry old).1
            omega
        · intro free
          exact absurd pair (free other less)

theorem Layout.last_unmatched {k : Nat} {left : Spanned Side} {outer : List (Nat × Spanned Side)}
    (layout : Layout tokens tokens.length ((k, left) :: outer)) :
    LastUnmatched (outline tokens) k := by
  have bounded : ∀ i other, Paired (outline tokens) i other → other < tokens.length := by
    intro i other pair
    obtain ⟨side, paren⟩ := pair.symm.paren
    exact outline_bound paren
  obtain ⟨before, found⟩ := layout.entry List.mem_cons_self
  have here : (outline tokens)[k]? = some (some left.value) := by
    rw [outline_getElem?, found]
    rfl
  refine ⟨⟨⟨left.value, here⟩, ?_⟩, ?_⟩
  · intro other pair
    exact (layout.unpaired_iff before here).mp ⟨_, List.mem_cons_self, rfl⟩ other
      (bounded k other pair) pair
  · rintro later behind ⟨⟨side, paren⟩, free⟩
    cases layout with
    | left around _ _ inside _ =>
        obtain ⟨other, _, _, pair⟩ := paired_inside inside behind (outline_bound paren) paren
        exact free other pair

end Prefixes

section Run

theorem run_snoc (stack : Stack) (front : List Token) (token : Token) :
    (run stack (front ++ [token])).1 = (step (run stack front).1 token).1 := by
  simp [run_append, run]

/-- What a token does to the parentheses that are left over. -/
def settle (parens : List (Spanned Side)) (token : Token) : List (Spanned Side) :=
  match token.value with
  | .paren .opening => ⟨.opening, token.span⟩ :: parens
  | .paren .closing =>
    match parens with
    | ⟨.opening, _⟩ :: outer => outer
    | parens => ⟨.closing, token.span⟩ :: parens
  | _ => parens

theorem step_parens (stack : Stack) (token : Token) :
    (step stack token).1.groups.map Group.paren = settle (stack.groups.map Group.paren) token := by
  obtain ⟨kind, place⟩ := token
  obtain ⟨waiting, groups⟩ := stack
  rcases kind with lexeme | op | side
  · rfl
  · rfl
  · cases side with
    | opening => rfl
    | closing =>
        rcases groups with _ | ⟨⟨⟨side, _⟩, _⟩, _⟩
        · rfl
        · cases side <;> rfl

theorem layout_step {tokens : List Token} {n : Nat} {entries : List (Nat × Spanned Side)}
    {token : Token} (layout : Layout tokens n entries) (found : tokens[n]? = some token) :
    ∃ next, Layout tokens (n + 1) next ∧
      next.map Prod.snd = settle (entries.map Prod.snd) token := by
  have here : (outline tokens)[n]? = some token.value.side? := by
    rw [outline_getElem?, found]
    rfl
  have one : stretch (outline tokens) n (n + 1) = [token.value.side?] := by
    rw [stretch_cons (Nat.lt_succ_self n) here, stretch_self]
  have alone : Balanced (stretch (outline tokens) (n + 1) (n + 1)) := by
    rw [stretch_self]
    exact .nil
  obtain ⟨kind, place⟩ := token
  rcases kind with lexeme | op | side
  · exact ⟨entries, layout.extend (Nat.le_succ n) (by rw [one]; exact .other .nil), rfl⟩
  · exact ⟨entries, layout.extend (Nat.le_succ n) (by rw [one]; exact .other .nil), rfl⟩
  · cases side with
    | opening =>
        exact ⟨(n, ⟨.opening, place⟩) :: entries,
          .left layout (Nat.lt_succ_self n) found alone (fun closing => by contradiction), rfl⟩
    | closing =>
        cases layout with
        | base inside =>
            exact ⟨[(n, ⟨.closing, place⟩)],
              .left (.base inside) (Nat.lt_succ_self n) found alone (fun _ => by simp), rfl⟩
        | @left k _ paren outer around before opened inside barred =>
            obtain ⟨side, start⟩ := paren
            cases side with
            | opening =>
                -- The group ends, and with it the stretch behind the parenthesis around it grows.
                refine ⟨outer, around.extend (Nat.le_succ_of_le (Nat.le_of_lt before)) ?_, rfl⟩
                have opens : (outline tokens)[k]? = some (some .opening) := by
                  rw [outline_getElem?, opened]
                  rfl
                rw [stretch_cons (Nat.lt_succ_of_lt before) opens,
                  stretch_split before (Nat.lt_succ_self n) here, stretch_self]
                exact .group inside .nil
            | closing =>
                have kept : Layout tokens n ((k, ⟨.closing, start⟩) :: outer) :=
                  .left around before opened inside barred
                refine ⟨(n, ⟨.closing, place⟩) :: (k, ⟨.closing, start⟩) :: outer,
                  .left kept (Nat.lt_succ_self n) found alone fun _ => ?_, rfl⟩
                intro entry member
                rcases List.mem_cons.mp member with same | old
                · rw [same]
                · exact barred rfl entry old

theorem layout_run (tokens : List Token) (n : Nat) (bound : n ≤ tokens.length) :
    ∃ entries, Layout tokens n entries ∧
      (run {} (tokens.take n)).1.groups.map Group.paren = entries.map Prod.snd := by
  induction n with
  | zero => exact ⟨[], .base (by rw [stretch_self]; exact .nil), rfl⟩
  | succ n ih =>
      obtain ⟨entries, layout, held⟩ := ih (Nat.le_of_succ_le bound)
      obtain ⟨next, advanced, settled⟩ :=
        layout_step layout (List.getElem?_eq_getElem bound)
      refine ⟨next, advanced, ?_⟩
      rw [List.take_succ_eq_append_getElem bound, run_snoc, step_parens, held, settled]

end Run

theorem parse_cases (tokens : List Token) :
    ((∃ symbols, parse tokens = .ok symbols) ∧ ∀ k, ¬ Unmatched (outline tokens) k) ∨
    ∃ (k : Nat) (paren : Spanned Side), parse tokens = .error (paren.map ParenError.ofSide) ∧
      LastUnmatched (outline tokens) k ∧ tokens[k]? = some ⟨.paren paren.value, paren.span⟩ := by
  obtain ⟨entries, layout, held⟩ :=
    layout_run (Negation.mark tokens) (Negation.mark tokens).length (Nat.le_refl _)
  rw [List.take_length] at held
  cases layout with
  | base inside =>
      left
      have closed : (run {} (Negation.mark tokens)).1.groups = [] := by simpa using held
      refine ⟨⟨_, parse_of_closed closed⟩, ?_⟩
      rintro k ⟨⟨side, paren⟩, free⟩
      rw [← Negation.outline_mark] at paren free
      obtain ⟨other, _, _, pair⟩ := paired_inside inside (Nat.zero_le k) (outline_bound paren) paren
      exact free other pair
  | @left k _ paren outer around before found inside barred =>
      right
      refine ⟨k, paren, ?_, ?_, (Negation.mark_paren_iff tokens k _ _).mp found⟩
      · cases same : (run {} (Negation.mark tokens)).1.groups with
        | nil => simp [same] at held
        | cons group groups =>
            rw [same] at held
            simp only [List.map_cons, List.cons.injEq] at held
            rw [parse_of_open same, held.1]
      · rw [← Negation.outline_mark]
        exact Layout.last_unmatched (.left around before found inside barred)

theorem unmatched_append {tokens : List Token} {k : Nat}
    (unmatched : Unmatched (outline tokens) k)
    (closing : (outline tokens)[k]? = some (some .closing)) (later : List Token) :
    Unmatched (outline (tokens ++ later)) k := by
  have bound := (List.getElem?_eq_some_iff.mp closing).1
  have grown : outline (tokens ++ later) = outline tokens ++ outline later := List.map_append
  have kept : (outline tokens ++ outline later)[k]? = some (some .closing) := by
    rw [List.getElem?_append_left bound, closing]
  rw [grown]
  refine ⟨⟨.closing, kept⟩, ?_⟩
  rintro other (pair | pair)
  · have both := kept.symm.trans pair.opens
    simp at both
  · exact unmatched.2 other (.inr (partners_truncate pair bound))

theorem lastUnmatched_unique {sides : List (Option Side)} {k other : Nat}
    (one : LastUnmatched sides k) (two : LastUnmatched sides other) : k = other := by
  rcases Nat.lt_trichotomy k other with less | same | more
  · exact absurd two.1 (one.2 other less)
  · exact same
  · exact absurd one.1 (two.2 k more)

/-- The conversion succeeds exactly when every parenthesis has its partner, a closing one being the
partner of the nearest opening one that is still free. Otherwise the error names the last
parenthesis without a partner. A closing parenthesis without a partner keeps everything that begins
with these tokens from being converted. -/
theorem parse_verdict (tokens : List Token) :
    (∀ p q, Partners (outline tokens) p q ↔
      p < q ∧ (outline tokens)[p]? = some (some .opening) ∧
        (outline tokens)[q]? = some (some .closing) ∧
        (∀ earlier, earlier < q → ¬ Partners (outline tokens) p earlier) ∧
        ∀ nearer, p < nearer → nearer < q → (outline tokens)[nearer]? = some (some .opening) →
          ∃ earlier, earlier < q ∧ Partners (outline tokens) nearer earlier) ∧
    ((∃ symbols, parse tokens = .ok symbols) ↔ ∀ k, ¬ Unmatched (outline tokens) k) ∧
    (∀ place, parse tokens = .error ⟨.unclosed, place⟩ ↔
      ∃ k, LastUnmatched (outline tokens) k ∧ tokens[k]? = some ⟨.paren .opening, place⟩) ∧
    (∀ place, parse tokens = .error ⟨.unmatched, place⟩ ↔
      ∃ k, LastUnmatched (outline tokens) k ∧ tokens[k]? = some ⟨.paren .closing, place⟩) ∧
    ∀ k, Unmatched (outline tokens) k → (outline tokens)[k]? = some (some .closing) →
      ∀ later symbols, parse (tokens ++ later) ≠ .ok symbols := by
  have converts_iff : ∀ tokens : List Token,
      (∃ symbols, parse tokens = .ok symbols) ↔ ∀ k, ¬ Unmatched (outline tokens) k := by
    intro tokens
    rcases parse_cases tokens with ⟨converted, free⟩ | ⟨k, paren, failed, last, _⟩
    · exact ⟨fun _ => free, fun _ => converted⟩
    · constructor
      · rintro ⟨symbols, converted⟩
        rw [failed] at converted
        contradiction
      · intro free
        exact absurd last.1 (free k)
  have fails_iff : ∀ side place, parse tokens = .error ⟨.ofSide side, place⟩ ↔
      ∃ k, LastUnmatched (outline tokens) k ∧ tokens[k]? = some ⟨.paren side, place⟩ := by
    intro side place
    rcases parse_cases tokens with ⟨⟨symbols, converted⟩, free⟩ | ⟨k, paren, failed, last, found⟩
    · constructor
      · intro failed
        rw [converted] at failed
        contradiction
      · rintro ⟨k, last, _⟩
        exact absurd last.1 (free k)
    · rw [failed]
      constructor
      · intro same
        simp only [Except.error.injEq, Spanned.map, Spanned.mk.injEq] at same
        have sides : paren.value = side := by
          cases known : paren.value <;> cases side <;> simp [known, ParenError.ofSide] at same ⊢
        exact ⟨k, last, by rw [found, sides, same.2]⟩
      · rintro ⟨other, lastOther, foundOther⟩
        rw [← lastUnmatched_unique last lastOther, found] at foundOther
        simp only [Option.some.injEq, Spanned.mk.injEq, Kind.paren.injEq] at foundOther
        simp [Spanned.map, foundOther.1, foundOther.2]
  refine ⟨fun p q => partners_iff_nearest p q, converts_iff tokens, fails_iff .opening,
    fails_iff .closing, ?_⟩
  intro k unmatched closing later symbols converted
  exact (converts_iff (tokens ++ later)).mp ⟨symbols, converted⟩ k
    (unmatched_append unmatched closing later)

end Rpn.Shunting
