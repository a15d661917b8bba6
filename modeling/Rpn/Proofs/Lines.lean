import Rpn.Text.Blank
/-!
The lines of a text that a line feed cuts in two are those of both parts. The part in front has its
last line ended, which takes a carriage return off it, or gains an empty line. That shows in no line
that is trimmed and not blank, so these lines just add up.
-/
namespace Rpn.Text

/-- The lines that are not blank, trimmed. -/
def filledLines (text : List Char) : List (List Char) :=
  ((lines text).map trim).filter fun line => !line.isEmpty

section Cutting
variable {c : Char} {rest : List Char}

/-- The character ends no line, alone or with what follows. -/
def Inner (c : Char) (rest : List Char) : Prop := c ≠ '\n' ∧ ¬ (c = '\r' ∧ rest.head? = some '\n')

def ontoFirst (c : Char) : List (List Char) → List (List Char)
  | [] => [[c]]
  | line :: later => (c :: line) :: later

theorem lines_inner (inner : Inner c rest) : lines (c :: rest) = ontoFirst c (lines rest) := by
  rw [lines]
  · rfl
  · exact inner.1
  · rintro back rfl rfl
    exact inner.2 ⟨rfl, rfl⟩

theorem inner_of_plain (plain : c = '\n' → False)
    (alone : ∀ back, c = '\r' → rest = '\n' :: back → False) : Inner c rest := by
  refine ⟨plain, fun ⟨carriage, feed⟩ => ?_⟩
  cases rest with
  | nil => contradiction
  | cons next back =>
      obtain rfl := Option.some.inj feed
      exact alone back carriage rfl

theorem lines_eq_nil (none : lines rest = []) : rest = [] := by
  fun_cases lines rest with
  | case1 => rfl
  | case2 | case3 => contradiction
  | case4 c rest plain alone empty | case5 c rest plain alone line later read =>
      rw [lines_inner (inner_of_plain plain alone)] at none
      cases read : lines rest <;> rw [read] at none <;> contradiction

/-- The second list is what becomes of the first one, all lines of a text, when a line feed is put
behind the text. -/
inductive Ended : List (List Char) → List (List Char) → Prop where
  | gained : Ended [] [[]]
  | kept (line : List Char) : Ended [line] [line]
  | shortened (line : List Char) : Ended [line ++ ['\r']] [line]
  | cons (line : List Char) {before after : List (List Char)} (ended : Ended before after) :
      Ended (line :: before) (line :: after)

theorem Ended.ontoFirst {line : List Char} {later ended : List (List Char)} (c : Char)
    (ends : Ended (line :: later) ended) :
    Ended (ontoFirst c (line :: later)) (ontoFirst c ended) := by
  cases ends with
  | kept => exact .kept _
  | shortened shorter => exact .shortened (c :: shorter)
  | cons _ ended => exact .cons _ ended

theorem Ended.ontoFirst_append {before ended : List (List Char)} (c : Char)
    (ends : Ended before ended) (back : List (List Char)) :
    Text.ontoFirst c (ended ++ back) = Text.ontoFirst c ended ++ back := by
  cases ends <;> rfl

-- A carriage return at the end of a text is part of its last line, and part of the ending as soon as
-- a line feed follows.
theorem lines_cut (front : List Char) : ∃ ended, Ended (lines front) ended ∧
    ∀ back, lines (front ++ '\n' :: back) = ended ++ lines back := by
  induction front using lines.induct with
  | case1 => exact ⟨[[]], .gained, fun back => rfl⟩
  | case2 rest ih =>
      obtain ⟨ended, ends, cut⟩ := ih
      refine ⟨[] :: ended, .cons [] ends, fun back => ?_⟩
      rw [List.cons_append, lines, cut, List.cons_append]
  | case3 rest ih =>
      obtain ⟨ended, ends, cut⟩ := ih
      refine ⟨[] :: ended, .cons [] ends, fun back => ?_⟩
      rw [List.cons_append, List.cons_append, lines, cut, List.cons_append]
  | case4 c rest plain alone none ih =>
      obtain rfl := lines_eq_nil none
      by_cases carriage : c = '\r'
      · subst carriage
        exact ⟨[[]], .shortened [], fun back => rfl⟩
      · refine ⟨[[c]], ?_, fun back => ?_⟩
        · rw [lines_inner (inner_of_plain plain alone)]
          exact .kept [c]
        · exact lines_inner ⟨plain, fun ends => carriage ends.1⟩
  | case5 c rest plain alone line later read ih =>
      obtain ⟨ended, ends, cut⟩ := ih
      have inner := inner_of_plain plain alone
      refine ⟨ontoFirst c ended, ?_, fun back => ?_⟩
      · rw [lines_inner inner, read]
        rw [read] at ends
        exact ends.ontoFirst c
      · have inner : Inner c (rest ++ '\n' :: back) := by
          cases rest with
          | nil => contradiction
          | cons next rest => exact inner
        rw [List.cons_append, lines_inner inner, cut, ends.ontoFirst_append]

end Cutting

section Trimming

theorem trim_return (line : List Char) : trim (line ++ ['\r']) = trim line := by
  have blank : isBlank '\r' = true := by decide
  rw [trim, trim, List.dropWhile_append]
  split
  · rename_i none
    rw [List.isEmpty_iff.mp none]
    rfl
  · rw [List.reverse_append, List.reverse_singleton, List.singleton_append,
      List.dropWhile_cons_of_pos blank]

theorem Ended.filled {before after : List (List Char)} (ended : Ended before after) :
    (after.map trim).filter (fun line => !line.isEmpty) =
      (before.map trim).filter fun line => !line.isEmpty := by
  induction ended with
  | gained => rfl
  | kept line => rfl
  | shortened line => simp [trim_return]
  | cons line ended ih => simp [List.filter_cons, ih]

theorem filledLines_cut (front back : List Char) :
    filledLines (front ++ '\n' :: back) = filledLines front ++ filledLines back := by
  obtain ⟨ended, ends, cut⟩ := lines_cut front
  rw [filledLines, cut, List.map_append, List.filter_append, ends.filled]
  rfl

theorem lines_single {c : Char} {rest : List Char} (single : '\n' ∉ c :: rest) :
    lines (c :: rest) = [c :: rest] := by
  induction rest generalizing c with
  | nil =>
      have inner : Inner c [] := ⟨fun feed => single (feed ▸ List.mem_cons_self), nofun⟩
      rw [lines_inner inner, lines]
      rfl
  | cons next rest ih =>
      have later : '\n' ∉ next :: rest := fun member => single (List.mem_cons_of_mem _ member)
      have inner : Inner c (next :: rest) := by
        refine ⟨fun feed => single (feed ▸ List.mem_cons_self), fun ends => later ?_⟩
        rw [Option.some.inj ends.2]
        exact List.mem_cons_self
      rw [lines_inner inner, ih later]
      rfl

theorem filledLines_single {line : List Char} (single : '\n' ∉ line) :
    filledLines line = [trim line].filter fun line => !line.isEmpty := by
  cases line with
  | nil => rfl
  | cons c rest => rw [filledLines, lines_single single, List.map_singleton]

theorem filledLines_joined {typed : List (List Char)} (single : ∀ line ∈ typed, '\n' ∉ line) :
    filledLines (['\n'].intercalate typed) = (typed.map trim).filter fun line => !line.isEmpty := by
  induction typed with
  | nil => rfl
  | cons line later ih =>
      obtain ⟨here, behind⟩ := List.forall_mem_cons.mp single
      cases later with
      | nil =>
          rw [List.intercalate_singleton]
          exact filledLines_single here
      | cons next later =>
          rw [List.intercalate_cons_cons, List.append_assoc, List.singleton_append, filledLines_cut,
            ih behind, filledLines_single here, ← List.filter_append]
          rfl

end Trimming

end Rpn.Text
