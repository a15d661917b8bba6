import Mathlib.Data.List.Induction
import Rpn.Proofs.Hulls
import Rpn.Proofs.Slices
/-!
Joining spans. However often a span is joined with others, it runs from the least to the greatest of
the bounds it was given since it was last replaced. Spans that cut a text between characters have a
join that does so too, and what each of them covers stands in the text of the join.
-/
namespace Rpn.Span

section Texts
variable {spans : List Span} {whole : Span} {text : List Char}

theorem Hull.slices (hull : Hull spans whole)
    (cuts : ∀ span ∈ spans, ∃ lexeme, span.slice? text = some lexeme) :
    ∃ cover, whole.slice? text = some cover := by
  obtain ⟨first, memberFirst, lo⟩ := hull.starts
  obtain ⟨last, memberLast, hi⟩ := hull.ends
  obtain ⟨head, starts⟩ := cuts first memberFirst
  obtain ⟨tail, ends⟩ := cuts last memberLast
  exact slice_between starts ends lo hi

theorem Hull.contains (hull : Hull spans whole) {cover lexeme : List Char}
    (covered : whole.slice? text = some cover) {span : Span} (member : span ∈ spans)
    (sliced : span.slice? text = some lexeme) :
    ∃ front back, cover = front ++ lexeme ++ back ∧ whole.lo + Text.size front = span.lo := by
  obtain ⟨before, behind, split, start, size⟩ := slice?_eq_some_iff.mp covered
  obtain ⟨before', behind', split', start', size'⟩ := slice?_eq_some_iff.mp sliced
  obtain ⟨lower, upper⟩ := hull.inside span member
  have ordered := whole.ordered
  have orderedSpan := span.ordered
  rw [Span.length] at size size'
  have opening : before ++ (cover ++ behind) = before' ++ (lexeme ++ behind') := by
    rw [← List.append_assoc, ← split, split', List.append_assoc]
  obtain ⟨front, reached, rest⟩ := Text.split_of_size_le opening (by omega)
  have width : Text.size before' = Text.size before + Text.size front := by
    rw [reached, Text.size_append]
  have closing : (front ++ lexeme) ++ behind' = cover ++ behind := by
    rw [rest, List.append_assoc]
  obtain ⟨back, last, _⟩ := Text.split_of_size_le closing (by rw [Text.size_append]; omega)
  exact ⟨front, back, last, by omega⟩

end Texts

/-- One change of a span that is kept: new bounds in place of the old ones, or bounds to cover as
well. -/
inductive Change where
  | replace (a b : Nat)
  | widen (a b : Nat)
deriving DecidableEq, Repr

namespace Change

def bounds : Change → List Nat
  | .replace a b => [a, b]
  | .widen a b => [a, b]

def apply (span : Span) : Change → Span
  | .replace a b => ofBounds a b
  | .widen a b => span.join (ofBounds a b)

end Change

/-- The span that is left when all changes are made, starting with the empty span at zero. -/
def replay (history : List Change) : Span := history.foldl Change.apply default

/-- The bound comes from the last replacement or a change behind it. The span at the start counts as
a replacement. -/
def Given (history : List Change) (bound : Nat) : Prop :=
  ∃ earlier change later, .replace 0 0 :: history = earlier ++ change :: later ∧
    bound ∈ change.bounds ∧ ∀ next ∈ later, ∃ a b, next = .widen a b

section Bounds

theorem lo_mem_bounds (a b : Nat) : (ofBounds a b).lo ∈ [a, b] := by
  simp only [ofBounds, List.mem_cons, List.not_mem_nil, or_false]
  omega

theorem hi_mem_bounds (a b : Nat) : (ofBounds a b).hi ∈ [a, b] := by
  simp only [ofBounds, List.mem_cons, List.not_mem_nil, or_false]
  omega

theorem bounds_within {a b bound : Nat} (given : bound ∈ [a, b]) :
    (ofBounds a b).lo ≤ bound ∧ bound ≤ (ofBounds a b).hi := by
  simp only [List.mem_cons, List.not_mem_nil, or_false] at given
  simp only [ofBounds]
  omega

end Bounds

section Histories
variable {history : List Change}

theorem given_last {change : Change} {bound : Nat} (given : bound ∈ change.bounds) :
    Given (history ++ [change]) bound :=
  ⟨.replace 0 0 :: history, change, [], rfl, given, fun next member => by simp at member⟩

theorem given_replace_iff (a b bound : Nat) :
    Given (history ++ [.replace a b]) bound ↔ bound ∈ [a, b] := by
  constructor
  · rintro ⟨earlier, change, later, split, given, widens⟩
    rw [← List.cons_append] at split
    rcases List.eq_nil_or_concat later with rfl | ⟨front, last, rfl⟩
    · obtain ⟨_, same⟩ := List.append_inj' split rfl
      obtain rfl := (List.cons.inj same).1
      exact given
    · rw [List.concat_eq_append, ← List.cons_append, ← List.append_assoc] at split
      obtain ⟨_, same⟩ := List.append_inj' split rfl
      obtain ⟨c, d, widen⟩ := widens last (by simp)
      rw [widen] at same
      simp at same
  · exact fun given => given_last given

theorem given_widen_iff (a b bound : Nat) :
    Given (history ++ [.widen a b]) bound ↔ Given history bound ∨ bound ∈ [a, b] := by
  constructor
  · rintro ⟨earlier, change, later, split, given, widens⟩
    rw [← List.cons_append] at split
    rcases List.eq_nil_or_concat later with rfl | ⟨front, last, rfl⟩
    · obtain ⟨_, same⟩ := List.append_inj' split rfl
      obtain rfl := (List.cons.inj same).1
      exact .inr given
    · rw [List.concat_eq_append, ← List.cons_append, ← List.append_assoc] at split
      obtain ⟨kept, _⟩ := List.append_inj' split rfl
      exact .inl ⟨earlier, change, front, kept, given, fun next member => widens next (by simp [member])⟩
  · rintro (⟨earlier, change, later, split, given, widens⟩ | given)
    · refine ⟨earlier, change, later ++ [.widen a b], ?_, given, ?_⟩
      · rw [← List.cons_append, split, List.append_assoc, List.cons_append]
      · intro next member
        rcases List.mem_append.mp member with old | new
        · exact widens next old
        · exact ⟨a, b, List.mem_singleton.mp new⟩
    · exact given_last given

/-- The least and the greatest of the bounds that were given. -/
structure Extent (history : List Change) (span : Span) : Prop where
  lower : Given history span.lo
  upper : Given history span.hi
  within : ∀ bound, Given history bound → span.lo ≤ bound ∧ bound ≤ span.hi

theorem extent_start : Extent [] default := by
  have zero : Given [] 0 := ⟨[], .replace 0 0, [], rfl, by simp [Change.bounds], by simp⟩
  refine ⟨zero, zero, ?_⟩
  rintro bound ⟨earlier, change, later, split, given, _⟩
  obtain ⟨rfl, rfl⟩ : earlier = [] ∧ change = .replace 0 0 := by
    cases earlier <;> simp_all
  obtain rfl : bound = 0 := by simpa [Change.bounds] using given
  exact ⟨Nat.le_refl 0, Nat.le_refl 0⟩

theorem Extent.apply {span : Span} (extent : Extent history span) (change : Change) :
    Extent (history ++ [change]) (change.apply span) := by
  cases change with
  | replace a b =>
      refine ⟨given_last (lo_mem_bounds a b), given_last (hi_mem_bounds a b), ?_⟩
      exact fun bound given => bounds_within ((given_replace_iff a b bound).mp given)
  | widen a b =>
      have kept : ∀ bound, Given history bound → Given (history ++ [.widen a b]) bound :=
        fun bound given => (given_widen_iff a b bound).mpr (.inl given)
      have hull := (hull_single span).append (hull_single (ofBounds a b))
      refine ⟨?_, ?_, ?_⟩
      · change Given _ (span.join (ofBounds a b)).lo
        rcases join_lo_or span (ofBounds a b) with same | same
        · exact same ▸ kept _ extent.lower
        · exact same ▸ given_last (lo_mem_bounds a b)
      · change Given _ (span.join (ofBounds a b)).hi
        rcases join_hi_or span (ofBounds a b) with same | same
        · exact same ▸ kept _ extent.upper
        · exact same ▸ given_last (hi_mem_bounds a b)
      · intro bound given
        rcases (given_widen_iff a b bound).mp given with old | now
        · obtain ⟨low, high⟩ := hull.inside span (by simp)
          obtain ⟨lower, upper⟩ := extent.within bound old
          exact ⟨Nat.le_trans low lower, Nat.le_trans upper high⟩
        · obtain ⟨low, high⟩ := hull.inside (ofBounds a b) (by simp)
          obtain ⟨lower, upper⟩ := bounds_within now
          exact ⟨Nat.le_trans low lower, Nat.le_trans upper high⟩

theorem replay_extent (history : List Change) : Extent history (replay history) := by
  induction history using List.reverseRecOn with
  | nil => exact extent_start
  | append_singleton earlier change ih =>
      rw [replay, List.foldl_append]
      exact ih.apply change

theorem Extent.unique {span other : Span} (extent : Extent history span)
    {history' : List Change} (extent' : Extent history' other)
    (same : ∀ bound, Given history bound ↔ Given history' bound) : span = other := by
  have lower := extent.within _ ((same _).mpr extent'.lower)
  have lower' := extent'.within _ ((same _).mp extent.lower)
  have upper := extent.within _ ((same _).mpr extent'.upper)
  have upper' := extent'.within _ ((same _).mp extent.upper)
  ext <;> omega

end Histories

/-- A span that is replaced and joined any number of times has its bounds in order and runs from the
least to the greatest bound given since the last replacement; how often and in which order they were
given makes no difference. Where several spans cut a text between characters, their join does, and
the text of each stands in the text of the join, as far behind its start as the spans are apart. -/
theorem joins_cover :
    (∀ history, (replay history).lo + (replay history).length = (replay history).hi ∧
      Given history (replay history).lo ∧ Given history (replay history).hi ∧
      (∀ bound, Given history bound →
        (replay history).lo ≤ bound ∧ bound ≤ (replay history).hi) ∧
      ∀ history', (∀ bound, Given history bound ↔ Given history' bound) →
        replay history = replay history') ∧
    ∀ (text : List Char) (first : Span) (rest : List Span),
      (∀ span ∈ first :: rest, ∃ lexeme, span.slice? text = some lexeme) →
      ∃ cover, (rest.foldl join first).slice? text = some cover ∧
        ∀ span ∈ first :: rest, ∀ lexeme, span.slice? text = some lexeme →
          ∃ front back, cover = front ++ lexeme ++ back ∧
            (rest.foldl join first).lo + Text.size front = span.lo := by
  constructor
  · intro history
    have extent := replay_extent history
    have ordered := (replay history).ordered
    refine ⟨?_, extent.lower, extent.upper, extent.within, ?_⟩
    · rw [Span.length]
      omega
    · intro history' same
      exact extent.unique (replay_extent history') same
  · intro text first rest cuts
    have hull := (hull_single first).foldl rest
    obtain ⟨cover, covered⟩ := hull.slices cuts
    exact ⟨cover, covered, fun span member lexeme sliced => hull.contains covered member sliced⟩

/-- Two histories with the same bounds since they were last replaced; and in `é+π` the join of the
spans of both letters, which covers the sign between them. -/
theorem joins_cover_accented :
    let first : List Change := [.replace 7 2, .widen 9 4]
    let second : List Change := [.widen 5 30, .replace 9 2, .widen 4 7, .widen 4 7]
    let text := ['é', '+', 'π']
    let letters : List Span := [.sized 3 2, .sized 0 2]
    ((∀ bound, Given first bound ↔ Given second bound) ∧ replay first = replay second) ∧
    (∀ span ∈ letters, ∃ lexeme, span.slice? text = some lexeme) ∧
    ∃ cover, ((Span.sized 3 2).join (.sized 0 2)).slice? text = some cover ∧
      ∀ span ∈ letters, ∀ lexeme, span.slice? text = some lexeme →
        ∃ front back, cover = front ++ lexeme ++ back ∧
          ((Span.sized 3 2).join (.sized 0 2)).lo + Text.size front = span.lo := by
  intro first second text letters
  have same : ∀ bound, Given first bound ↔ Given second bound := by
    intro bound
    have one : first = ([] : List Change) ++ [Change.replace 7 2] ++ [Change.widen 9 4] := rfl
    have two : second = [Change.widen 5 30] ++ [Change.replace 9 2] ++ [Change.widen 4 7] ++
        [Change.widen 4 7] := rfl
    rw [one, two]
    simp only [given_widen_iff, given_replace_iff, List.mem_cons, List.not_mem_nil, or_false]
    omega
  have cuts : ∀ span ∈ letters, ∃ lexeme, span.slice? text = some lexeme :=
    List.forall_mem_cons.mpr ⟨⟨['π'], by decide⟩, List.forall_mem_singleton.mpr ⟨['é'], by decide⟩⟩
  obtain ⟨_, _, _, _, unique⟩ := joins_cover.1 first
  exact ⟨⟨same, unique second same⟩, cuts, joins_cover.2 text (.sized 3 2) [.sized 0 2] cuts⟩

end Rpn.Span
