import Rpn.Span
/-!
Joined spans. A join starts where one of the spans starts and ends where one of them ends, and none of
them reaches out of it.
-/
namespace Rpn.Span

theorem join_comm (a b : Span) : a.join b = b.join a :=
  Span.ext (Nat.min_comm _ _) (Nat.max_comm _ _)

theorem join_assoc (a b c : Span) : (a.join b).join c = a.join (b.join c) :=
  Span.ext (Nat.min_assoc _ _ _) (Nat.max_assoc _ _ _)

theorem join_self (a : Span) : a.join a = a := Span.ext (Nat.min_self _) (Nat.max_self _)

theorem join_lo_or (a b : Span) : (a.join b).lo = a.lo ∨ (a.join b).lo = b.lo := by
  simp only [join]
  omega

theorem join_hi_or (a b : Span) : (a.join b).hi = a.hi ∨ (a.join b).hi = b.hi := by
  simp only [join]
  omega

/-- The span runs from the first start to the last end of these spans. -/
structure Hull (spans : List Span) (whole : Span) : Prop where
  starts : ∃ span ∈ spans, span.lo = whole.lo
  ends : ∃ span ∈ spans, span.hi = whole.hi
  inside : ∀ span ∈ spans, whole.lo ≤ span.lo ∧ span.hi ≤ whole.hi

theorem hull_single (span : Span) : Hull [span] span where
  starts := ⟨span, List.mem_singleton_self span, rfl⟩
  ends := ⟨span, List.mem_singleton_self span, rfl⟩
  inside := by
    intro other member
    rw [List.mem_singleton.mp member]
    exact ⟨Nat.le_refl _, Nat.le_refl _⟩

section Joins
variable {spans others : List Span} {a b : Span}

theorem Hull.append (first : Hull spans a) (second : Hull others b) :
    Hull (spans ++ others) (a.join b) where
  starts := by
    obtain ⟨left, inLeft, startLeft⟩ := first.starts
    obtain ⟨right, inRight, startRight⟩ := second.starts
    rcases join_lo_or a b with same | same
    · exact ⟨left, List.mem_append_left _ inLeft, startLeft.trans same.symm⟩
    · exact ⟨right, List.mem_append_right _ inRight, startRight.trans same.symm⟩
  ends := by
    obtain ⟨left, inLeft, endLeft⟩ := first.ends
    obtain ⟨right, inRight, endRight⟩ := second.ends
    rcases join_hi_or a b with same | same
    · exact ⟨left, List.mem_append_left _ inLeft, endLeft.trans same.symm⟩
    · exact ⟨right, List.mem_append_right _ inRight, endRight.trans same.symm⟩
  inside := by
    intro span member
    simp only [join]
    rcases List.mem_append.mp member with inLeft | inRight
    · have bounds := first.inside span inLeft
      omega
    · have bounds := second.inside span inRight
      omega

theorem Hull.foldl (hull : Hull spans a) (more : List Span) :
    Hull (spans ++ more) (more.foldl Span.join a) := by
  induction more generalizing spans a with
  | nil => simpa using hull
  | cons span rest ih => simpa using ih (hull.append (hull_single span))

end Joins

end Rpn.Span
