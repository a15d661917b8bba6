import Rpn.Token
/-!
Matching of parentheses. The outline of a token list keeps the side of every parenthesis and nothing
of the other tokens. A stretch of an outline is balanced when it is built from groups, and two
parentheses are partners when the stretch between them is balanced. Counting open groups decides
whether a stretch is balanced, and it shows that no parenthesis has two partners.
-/
namespace Rpn

def Kind.side? : Kind → Option Side
  | .paren side => some side
  | _ => none

def outline (tokens : List Token) : List (Option Side) := tokens.map fun token => token.value.side?

namespace Brackets

/-- Every parenthesis of the stretch is closed or opened inside it. -/
inductive Balanced : List (Option Side) → Prop where
  | nil : Balanced []
  | other {rest} (tail : Balanced rest) : Balanced (none :: rest)
  | group {inner rest} (inside : Balanced inner) (tail : Balanced rest) :
      Balanced (some .opening :: inner ++ some .closing :: rest)

def enter : Nat → Option Side → Option Nat
  | depth, none => some depth
  | depth, some .opening => some (depth + 1)
  | 0, some .closing => none
  | depth + 1, some .closing => some depth

/-- How many groups are open behind the stretch, or `none` where it closes more than were open. -/
def depth? (start : Nat) : List (Option Side) → Option Nat
  | [] => some start
  | side :: rest => (enter start side).bind fun inner => depth? inner rest

section Counting

theorem depth_append (start : Nat) (front back : List (Option Side)) :
    depth? start (front ++ back) = (depth? start front).bind fun inner => depth? inner back := by
  induction front generalizing start with
  | nil => rfl
  | cons side rest ih =>
      simp only [List.cons_append, depth?]
      cases enter start side with
      | none => rfl
      | some inner => exact ih inner

theorem enter_raise {start stop : Nat} {side : Option Side} (extra : Nat)
    (entered : enter start side = some stop) : enter (start + extra) side = some (stop + extra) := by
  rcases side with _ | _ | _
  · simp only [enter, Option.some.injEq] at entered ⊢
    omega
  · simp only [enter, Option.some.injEq] at entered ⊢
    omega
  · cases start with
    | zero => simp [enter] at entered
    | succ start =>
        simp only [enter, Option.some.injEq] at entered
        rw [Nat.add_right_comm, enter, entered]

-- A stretch that never closes an outer group reads the same inside any number of them.
theorem depth_raise {start stop : Nat} {sides : List (Option Side)} (extra : Nat)
    (read : depth? start sides = some stop) : depth? (start + extra) sides = some (stop + extra) := by
  induction sides generalizing start with
  | nil =>
      simp only [depth?, Option.some.injEq] at read ⊢
      omega
  | cons side rest ih =>
      obtain ⟨inner, entered, tail⟩ := Option.bind_eq_some_iff.mp read
      rw [depth?, enter_raise extra entered]
      exact ih tail

theorem Balanced.depth {sides : List (Option Side)} (balanced : Balanced sides) (start : Nat) :
    depth? start sides = some start := by
  induction balanced generalizing start with
  | nil => rfl
  | other tail ih => exact ih start
  | @group inner rest inside tail insideDepth tailDepth =>
      change depth? (start + 1) (inner ++ some .closing :: rest) = some start
      rw [depth_append, insideDepth (start + 1)]
      exact tailDepth start

theorem failure_at_closing {start : Nat} {sides : List (Option Side)}
    (failed : depth? start sides = none) :
    ∃ front back, sides = front ++ some .closing :: back ∧ depth? start front = some 0 := by
  induction sides generalizing start with
  | nil => simp [depth?] at failed
  | cons side rest ih =>
      cases entered : enter start side with
      | some inner =>
          simp only [depth?, entered, Option.bind_some] at failed
          obtain ⟨front, back, split, lowest⟩ := ih failed
          exact ⟨side :: front, back, by simp [split], by simp [depth?, entered, lowest]⟩
      | none =>
          match start, side with
          | 0, some .closing => exact ⟨[], rest, rfl, rfl⟩
          | 0, some .opening | 0, none => simp [enter] at entered
          | _ + 1, some .closing | _ + 1, some .opening | _ + 1, none => simp [enter] at entered

-- Leaving the group that was open at the start takes a closing parenthesis of its own.
theorem leave_at_closing {start stop : Nat} {sides : List (Option Side)}
    (read : depth? (start + 1) sides = some stop) (left : stop ≤ start) :
    ∃ front back, sides = front ++ some .closing :: back ∧ depth? 0 front = some 0 := by
  apply failure_at_closing
  cases kept : depth? 0 sides with
  | none => rfl
  | some final =>
      have raised := depth_raise (start + 1) kept
      rw [Nat.zero_add, read, Option.some.injEq] at raised
      omega

theorem balanced_of_depth {sides : List (Option Side)} (level : depth? 0 sides = some 0) :
    Balanced sides := by
  match sides with
  | [] => exact .nil
  | none :: rest => exact .other (balanced_of_depth level)
  | some .closing :: rest => simp [depth?, enter] at level
  | some .opening :: rest =>
      have entered : depth? (0 + 1) rest = some 0 := level
      obtain ⟨inner, back, split, inside⟩ := leave_at_closing entered (Nat.le_refl 0)
      have tail : depth? 0 back = some 0 := by
        rwa [split, depth_append, depth_raise 1 inside] at entered
      rw [split]
      exact .group (balanced_of_depth inside) (balanced_of_depth tail)
termination_by sides.length
decreasing_by
  · simp
  · simp only [split, List.length_cons, List.length_append]
    omega
  · simp only [split, List.length_cons, List.length_append]
    omega

theorem balanced_iff (sides : List (Option Side)) : Balanced sides ↔ depth? 0 sides = some 0 :=
  ⟨fun balanced => balanced.depth 0, balanced_of_depth⟩

theorem Balanced.append {front back : List (Option Side)} (first : Balanced front)
    (second : Balanced back) : Balanced (front ++ back) := by
  rw [balanced_iff, depth_append, first.depth 0]
  exact second.depth 0

theorem Balanced.not_closing_after {front : List (Option Side)} (first : Balanced front)
    (back : List (Option Side)) : ¬ Balanced (front ++ some .closing :: back) := by
  rw [balanced_iff, depth_append, first.depth 0]
  simp [depth?, enter]

theorem Balanced.not_opening_before {back : List (Option Side)} (second : Balanced back)
    (front : List (Option Side)) : ¬ Balanced (front ++ some .opening :: back) := by
  rw [balanced_iff, depth_append]
  cases depth? 0 front with
  | none => simp
  | some inner => simp [depth?, enter, second.depth]

-- Groups that are still open behind the stretch: the innermost has everything after it balanced.
theorem last_opening {start stop : Nat} {sides : List (Option Side)}
    (read : depth? start sides = some stop) (deeper : start < stop) :
    ∃ front back, sides = front ++ some .opening :: back ∧ Balanced back := by
  match sides with
  | [] =>
      simp only [depth?, Option.some.injEq] at read
      omega
  | side :: rest =>
      obtain ⟨inner, entered, tail⟩ := Option.bind_eq_some_iff.mp read
      by_cases below : inner < stop
      · obtain ⟨front, back, split, balanced⟩ := last_opening tail below
        exact ⟨side :: front, back, by simp [split], balanced⟩
      · match start, side with
        | 0, some .closing => simp [enter] at entered
        | _ + 1, some .closing | _, none =>
            simp only [enter, Option.some.injEq] at entered
            omega
        | start, some .opening =>
            simp only [enter, Option.some.injEq] at entered
            obtain rfl : stop = start + 1 := by omega
            subst entered
            cases kept : depth? 0 rest with
            | some final =>
                have raised := depth_raise (start + 1) kept
                rw [Nat.zero_add, tail, Option.some.injEq] at raised
                obtain rfl : final = 0 := by omega
                exact ⟨[], rest, rfl, balanced_of_depth kept⟩
            | none =>
                obtain ⟨inside, later, split, lowest⟩ := failure_at_closing kept
                rw [split, depth_append, (balanced_of_depth lowest).depth (start + 1)] at tail
                have reached : depth? start later = some (start + 1) := tail
                obtain ⟨front, back, splitLater, balanced⟩ := last_opening reached deeper
                exact ⟨some .opening :: inside ++ some .closing :: front, back,
                  by simp [split, splitLater], balanced⟩
termination_by sides.length
decreasing_by
  · simp
  · simp [split]
    omega

end Counting

/-- The entries from `lo` up to, not including, `hi`. -/
def stretch (sides : List (Option Side)) (lo hi : Nat) : List (Option Side) :=
  (sides.take hi).drop lo

/-- An opening parenthesis and the closing one that ends its group. -/
structure Partners (sides : List (Option Side)) (p q : Nat) : Prop where
  ordered : p < q
  opens : sides[p]? = some (some .opening)
  closes : sides[q]? = some (some .closing)
  inside : Balanced (stretch sides (p + 1) q)

def Paired (sides : List (Option Side)) (k other : Nat) : Prop :=
  Partners sides k other ∨ Partners sides other k

/-- A parenthesis of either side without a partner. -/
def Unmatched (sides : List (Option Side)) (k : Nat) : Prop :=
  (∃ side, sides[k]? = some (some side)) ∧ ∀ other, ¬ Paired sides k other

def LastUnmatched (sides : List (Option Side)) (k : Nat) : Prop :=
  Unmatched sides k ∧ ∀ later, k < later → ¬ Unmatched sides later

section Stretches
variable {sides : List (Option Side)}

theorem stretch_full (sides : List (Option Side)) : stretch sides 0 sides.length = sides := by
  simp [stretch]

theorem stretch_self (sides : List (Option Side)) (cut : Nat) : stretch sides cut cut = [] := by
  simp [stretch]

theorem stretch_cut (sides : List (Option Side)) {lo cut hi : Nat} (after : lo ≤ cut)
    (before : cut ≤ hi) : stretch sides lo hi = stretch sides lo cut ++ stretch sides cut hi := by
  have kept : sides.take cut = (sides.take hi).take cut := by
    rw [List.take_take, Nat.min_eq_left before]
  have front : stretch sides lo cut = (stretch sides lo hi).take (cut - lo) := by
    rw [stretch, stretch, kept, List.drop_take]
  have back : stretch sides cut hi = (stretch sides lo hi).drop (cut - lo) := by
    rw [stretch, stretch, List.drop_drop, Nat.add_sub_cancel' after]
  rw [front, back, List.take_append_drop]

theorem stretch_cons {lo hi : Nat} {side : Option Side} (inside : lo < hi)
    (found : sides[lo]? = some side) : stretch sides lo hi = side :: stretch sides (lo + 1) hi := by
  obtain ⟨bound, rfl⟩ := List.getElem?_eq_some_iff.mp found
  have short : lo < (sides.take hi).length := by
    rw [List.length_take]
    omega
  rw [stretch, List.drop_eq_getElem_cons short, List.getElem_take]
  rfl

theorem stretch_split {lo spot hi : Nat} {side : Option Side} (after : lo ≤ spot) (before : spot < hi)
    (found : sides[spot]? = some side) :
    stretch sides lo hi = stretch sides lo spot ++ side :: stretch sides (spot + 1) hi := by
  rw [stretch_cut sides after (Nat.le_of_lt before), stretch_cons before found]

theorem stretch_locate {lo hi : Nat} {front back : List (Option Side)} {side : Option Side}
    (split : stretch sides lo hi = front ++ side :: back) :
    lo + front.length < hi ∧ sides[lo + front.length]? = some side ∧
      stretch sides lo (lo + front.length) = front ∧
      stretch sides (lo + front.length + 1) hi = back := by
  have entry : (stretch sides lo hi)[front.length]? = some side := by simp [split]
  rw [stretch, List.getElem?_drop, List.getElem?_take] at entry
  split at entry
  · rename_i inside
    have whole := stretch_split (Nat.le_add_right lo front.length) inside entry
    rw [split] at whole
    have bound : lo + front.length < sides.length := (List.getElem?_eq_some_iff.mp entry).1
    have same := List.append_inj whole (by
      simp only [stretch, List.length_drop, List.length_take]
      omega)
    exact ⟨inside, entry, same.1.symm, (List.cons.inj same.2).2.symm⟩
  · contradiction

theorem partner_after_unique {p q other : Nat} (first : Partners sides p q)
    (second : Partners sides p other) : q = other := by
  rcases Nat.lt_trichotomy q other with less | same | more
  · have whole := second.inside
    rw [stretch_split first.ordered less first.closes] at whole
    exact absurd whole (first.inside.not_closing_after _)
  · exact same
  · have whole := first.inside
    rw [stretch_split second.ordered more second.closes] at whole
    exact absurd whole (second.inside.not_closing_after _)

theorem partner_before_unique {p other q : Nat} (first : Partners sides p q)
    (second : Partners sides other q) : p = other := by
  rcases Nat.lt_trichotomy p other with less | same | more
  · have whole := first.inside
    rw [stretch_split less second.ordered second.opens] at whole
    exact absurd whole (second.inside.not_opening_before _)
  · exact same
  · have whole := second.inside
    rw [stretch_split more first.ordered first.opens] at whole
    exact absurd whole (first.inside.not_opening_before _)

-- In a balanced stretch the partner of a parenthesis lies in the stretch as well.
theorem partner_after {lo p hi : Nat} (balanced : Balanced (stretch sides lo hi)) (after : lo ≤ p)
    (before : p < hi) (opens : sides[p]? = some (some .opening)) :
    ∃ q, q < hi ∧ Partners sides p q := by
  rw [stretch_split after before opens, balanced_iff, depth_append] at balanced
  obtain ⟨outer, _, entered⟩ := Option.bind_eq_some_iff.mp balanced
  obtain ⟨front, back, split, inside⟩ := leave_at_closing entered (Nat.zero_le outer)
  obtain ⟨bound, closes, same, _⟩ := stretch_locate split
  refine ⟨p + 1 + front.length, bound, by omega, opens, closes, ?_⟩
  rw [same]
  exact balanced_of_depth inside

theorem partner_before {lo q hi : Nat} (balanced : Balanced (stretch sides lo hi)) (after : lo ≤ q)
    (before : q < hi) (closes : sides[q]? = some (some .closing)) :
    ∃ p, lo ≤ p ∧ Partners sides p q := by
  rw [stretch_split after before closes, balanced_iff, depth_append] at balanced
  obtain ⟨outer, opened, left⟩ := Option.bind_eq_some_iff.mp balanced
  cases outer with
  | zero => simp [depth?, enter] at left
  | succ outer =>
      obtain ⟨front, back, split, inside⟩ := last_opening opened (Nat.succ_pos outer)
      obtain ⟨bound, opens, _, same⟩ := stretch_locate split
      refine ⟨lo + front.length, Nat.le_add_right _ _, bound, opens, closes, ?_⟩
      rw [same]
      exact inside

theorem Paired.symm {k other : Nat} (pair : Paired sides k other) : Paired sides other k :=
  Or.symm pair

theorem Paired.paren {k other : Nat} (pair : Paired sides k other) :
    ∃ side, sides[k]? = some (some side) := by
  rcases pair with pair | pair
  · exact ⟨_, pair.opens⟩
  · exact ⟨_, pair.closes⟩

theorem paired_unique {k first second : Nat} (one : Paired sides k first)
    (two : Paired sides k second) : first = second := by
  rcases one with one | one <;> rcases two with two | two
  · exact partner_after_unique one two
  · have both := one.opens.symm.trans two.closes
    simp at both
  · have both := one.closes.symm.trans two.opens
    simp at both
  · exact partner_before_unique one two

theorem paired_inside {lo k hi : Nat} {side : Side} (balanced : Balanced (stretch sides lo hi))
    (after : lo ≤ k) (before : k < hi) (paren : sides[k]? = some (some side)) :
    ∃ other, lo ≤ other ∧ other < hi ∧ Paired sides k other := by
  cases side with
  | opening =>
      obtain ⟨q, less, pair⟩ := partner_after balanced after before paren
      exact ⟨q, Nat.le_trans after (Nat.le_of_lt pair.ordered), less, .inl pair⟩
  | closing =>
      obtain ⟨p, more, pair⟩ := partner_before balanced after before paren
      exact ⟨p, more, Nat.lt_trans pair.ordered before, .inr pair⟩

-- No pair crosses an end of a balanced stretch.
theorem paired_stays {lo k hi other : Nat} (balanced : Balanced (stretch sides lo hi))
    (pair : Paired sides k other) (after : lo ≤ k) (before : k < hi) : lo ≤ other ∧ other < hi := by
  obtain ⟨side, paren⟩ := pair.paren
  obtain ⟨inside, more, less, second⟩ := paired_inside balanced after before paren
  rw [paired_unique pair second]
  exact ⟨more, less⟩

-- Matching from the left: a closing parenthesis takes the nearest opening one that none before took.
theorem partners_iff_nearest (p q : Nat) : Partners sides p q ↔
    p < q ∧ sides[p]? = some (some .opening) ∧ sides[q]? = some (some .closing) ∧
      (∀ earlier, earlier < q → ¬ Partners sides p earlier) ∧
      ∀ nearer, p < nearer → nearer < q → sides[nearer]? = some (some .opening) →
        ∃ earlier, earlier < q ∧ Partners sides nearer earlier := by
  constructor
  · intro pair
    refine ⟨pair.ordered, pair.opens, pair.closes, ?_, ?_⟩
    · intro earlier less other
      exact absurd (partner_after_unique pair other) (Nat.ne_of_gt less)
    · intro nearer after before opens
      exact partner_after pair.inside after before opens
  · rintro ⟨ordered, opens, closes, free, taken⟩
    refine ⟨ordered, opens, closes, ?_⟩
    cases level : depth? 0 (stretch sides (p + 1) q) with
    | none =>
        obtain ⟨front, back, split, lowest⟩ := failure_at_closing level
        obtain ⟨bound, found, same, _⟩ := stretch_locate split
        have pair : Partners sides p (p + 1 + front.length) :=
          ⟨by omega, opens, found, by rw [same]; exact balanced_of_depth lowest⟩
        exact absurd pair (free _ bound)
    | some final =>
        cases final with
        | zero => exact balanced_of_depth level
        | succ final =>
            obtain ⟨front, back, split, inside⟩ := last_opening level (Nat.succ_pos final)
            obtain ⟨bound, found, _, same⟩ := stretch_locate split
            obtain ⟨earlier, less, pair⟩ := taken (p + 1 + front.length) (by omega) bound found
            have late : Partners sides (p + 1 + front.length) q :=
              ⟨bound, found, closes, by rw [same]; exact inside⟩
            exact absurd (partner_after_unique late pair) (Nat.ne_of_gt less)

-- What stands behind a closing parenthesis has no part in whether it has a partner.
theorem partners_truncate {front back : List (Option Side)} {p q : Nat}
    (pair : Partners (front ++ back) p q) (bound : q < front.length) : Partners front p q := by
  have opens := pair.opens
  have closes := pair.closes
  have inside := pair.inside
  have ordered := pair.ordered
  rw [List.getElem?_append_left (by omega)] at opens closes
  rw [stretch, List.take_append_of_le_length (by omega)] at inside
  exact ⟨ordered, opens, closes, inside⟩

end Stretches

/-- The parentheses at `p` and `q` are the ends of the innermost group around position `k`. -/
structure Innermost (sides : List (Option Side)) (p q k : Nat) : Prop where
  partners : Partners sides p q
  opened : p < k
  closed : k < q
  nearest : ∀ other stop, Partners sides other stop → other < k → k < stop → other ≤ p

def ClosesGroup (sides : List (Option Side)) (k q : Nat) : Prop := ∃ p, Innermost sides p q k

/-- No group has one of the two positions directly inside it and not the other. -/
def SameGroup (sides : List (Option Side)) (i k : Nat) : Prop :=
  ∀ p q, Innermost sides p q i ↔ Innermost sides p q k

section Groups
variable {sides : List (Option Side)}

theorem not_partners_none {p q k : Nat} (plain : sides[k]? = some none)
    (pair : Partners sides p q) : p ≠ k ∧ q ≠ k := by
  constructor
  · intro same
    subst same
    have both := plain.symm.trans pair.opens
    simp at both
  · intro same
    subst same
    have both := plain.symm.trans pair.closes
    simp at both

-- A group that is open in front of `k` and has a partner somewhere reaches over `k`.
theorem closes_behind {m q k : Nat} (pair : Partners sides m q) (plain : sides[k]? = some none)
    (inside : Balanced (stretch sides (m + 1) k)) : k < q := by
  have apart := (not_partners_none plain pair).2
  by_cases early : q < k
  · have stays := (paired_stays inside (.inr pair) pair.ordered early).1
    omega
  · omega

theorem closesGroup_iff (balanced : Balanced sides) {i q : Nat} (before : i < q)
    (plain : sides[i]? = some none) (closes : sides[q]? = some (some .closing)) :
    ClosesGroup sides i q ↔ Balanced (stretch sides (i + 1) q) := by
  constructor
  · rintro ⟨p, group⟩
    have inside := group.partners.inside
    rw [stretch_split group.opened before plain, balanced_iff, depth_append] at inside
    obtain ⟨outer, opened, tail⟩ := Option.bind_eq_some_iff.mp inside
    cases outer with
    | zero => exact balanced_of_depth tail
    | succ outer =>
        obtain ⟨front, back, split, deepest⟩ := last_opening opened (Nat.succ_pos outer)
        obtain ⟨bound, opens, _, same⟩ := stretch_locate split
        rw [← same] at deepest
        obtain ⟨other, _, pair⟩ :=
          partner_after group.partners.inside (Nat.le_add_right _ _) (Nat.lt_trans bound before) opens
        have reaches := closes_behind pair plain deepest
        have nearest := group.nearest _ _ pair bound reaches
        omega
  · intro inside
    have bound := (List.getElem?_eq_some_iff.mp closes).1
    have whole : Balanced (stretch sides 0 sides.length) := by
      rw [stretch_full]
      exact balanced
    obtain ⟨p, _, pair⟩ := partner_before whole (Nat.zero_le q) bound closes
    have apart := (not_partners_none plain pair).1
    have opened : p < i := by
      by_cases late : i < p
      · have stays := (paired_stays inside (.inl pair) late pair.ordered).2
        omega
      · omega
    refine ⟨p, pair, opened, before, ?_⟩
    intro other stop around outside reaches
    by_cases nearer : p < other
    · have inner := (paired_stays pair.inside (.inl around) nearer (by omega)).2
      have stays := (paired_stays inside (.inr around) reaches inner).1
      omega
    · omega

theorem Innermost.transfer {i k p q : Nat} (innermost : Innermost sides p q i)
    (encloses : ∀ p q, Partners sides p q → ((p < i ∧ i < q) ↔ (p < k ∧ k < q))) :
    Innermost sides p q k := by
  obtain ⟨pair, opened, closed, nearest⟩ := innermost
  obtain ⟨left, right⟩ := (encloses p q pair).mp ⟨opened, closed⟩
  refine ⟨pair, left, right, fun start stop around outside far => ?_⟩
  obtain ⟨outside, far⟩ := (encloses start stop around).mpr ⟨outside, far⟩
  exact nearest start stop around outside far

theorem sameGroup_of_balanced {i k : Nat} (before : i < k) (plain : sides[i]? = some none)
    (other : sides[k]? = some none) (inside : Balanced (stretch sides (i + 1) k)) :
    SameGroup sides i k := by
  have encloses : ∀ p q, Partners sides p q → ((p < i ∧ i < q) ↔ (p < k ∧ k < q)) := by
    intro p q pair
    have apart := not_partners_none plain pair
    have apartOther := not_partners_none other pair
    constructor
    · rintro ⟨opened, closed⟩
      by_cases early : q < k
      · have stays := (paired_stays inside (.inr pair) closed early).1
        omega
      · omega
    · rintro ⟨opened, closed⟩
      by_cases late : i < p
      · have stays := (paired_stays inside (.inl pair) late opened).2
        omega
      · omega
  intro p q
  constructor
  · intro innermost
    exact innermost.transfer encloses
  · intro innermost
    apply innermost.transfer
    intro start stop pair
    exact (encloses start stop pair).symm

-- Where the stretch between two positions is not balanced, it ends the group of the one or starts the
-- group of the other.
theorem balanced_of_sameGroup (balanced : Balanced sides) {i k : Nat}
    (plain : sides[i]? = some none) (other : sides[k]? = some none)
    (same : SameGroup sides i k) : Balanced (stretch sides (i + 1) k) := by
  cases level : depth? 0 (stretch sides (i + 1) k) with
  | none =>
      obtain ⟨front, back, split, lowest⟩ := failure_at_closing level
      obtain ⟨bound, closes, inside, _⟩ := stretch_locate split
      have ends : ClosesGroup sides i (i + 1 + front.length) := by
        rw [closesGroup_iff balanced (by omega) plain closes, inside]
        exact balanced_of_depth lowest
      obtain ⟨p, group⟩ := ends
      have := ((same p _).mp group).closed
      omega
  | some final =>
      cases final with
      | zero => exact balanced_of_depth level
      | succ final =>
          obtain ⟨front, back, split, deepest⟩ := last_opening level (Nat.succ_pos final)
          obtain ⟨bound, opens, _, inside⟩ := stretch_locate split
          rw [← inside] at deepest
          have whole : Balanced (stretch sides 0 sides.length) := by
            rw [stretch_full]
            exact balanced
          obtain ⟨q, _, pair⟩ := partner_after whole (Nat.zero_le _)
            (List.getElem?_eq_some_iff.mp opens).1 opens
          have reaches := closes_behind pair other deepest
          have group : Innermost sides (i + 1 + front.length) q k := by
            refine ⟨pair, bound, reaches, ?_⟩
            intro start stop around outside far
            by_cases nearer : i + 1 + front.length < start
            · have stays := (paired_stays deepest (.inl around) nearer outside).2
              omega
            · omega
          have := ((same _ q).mpr group).opened
          omega

theorem sameGroup_iff (balanced : Balanced sides) {i k : Nat} (before : i < k)
    (plain : sides[i]? = some none) (other : sides[k]? = some none) :
    SameGroup sides i k ↔ Balanced (stretch sides (i + 1) k) := by
  constructor
  · exact balanced_of_sameGroup balanced plain other
  · exact sameGroup_of_balanced before plain other

end Groups

end Brackets

end Rpn
