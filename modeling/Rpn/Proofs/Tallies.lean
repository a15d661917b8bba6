import Rpn.Batch
/-!
Counters and what they count. The loop over the errors of a text displays as many as it counts, and the
loop over the lines of a batch has made one attempt for every line that is not blank, so its counters
are the number of attempts and the number of failures among them.
-/
namespace Rpn

namespace Attempt
variable (settings : Settings) (name : String) (text : List Char) (errors : List (Spanned String))

theorem display_eq (display : Display) : errors.foldl (Display.add name text) display =
    { displayed := display.displayed + errors.length
      events := display.events ++ (errors.map (located .error name text)).toArray } := by
  induction errors generalizing display with
  | nil => simp
  | cons error rest ih =>
      rw [List.foldl_cons, ih, Display.add, List.length_cons, List.map_cons]
      simp [Nat.add_assoc, Nat.add_comm 1]

-- As many errors are displayed as there are, or as the limit allows.
theorem failures_eq (audible : settings.quiet = false) : failures settings name text errors =
    (errors.take settings.maxErrors).map (located .error name text) ++
      [.diagnostic
        { message := summary name errors.length (min errors.length settings.maxErrors) }] := by
  have counted : 0 + min settings.maxErrors errors.length = min errors.length settings.maxErrors := by
    omega
  simp only [failures, audible, display_eq, List.length_take, counted, Array.toList_append]
  rfl

end Attempt

namespace Batch

/-- The lines that are not blank, each trimmed. -/
def entries (found : List (List Char × Nat)) : List Entry :=
  (found.map fun line => ⟨line.2, Text.trim line.1⟩).filter fun entry => !entry.text.isEmpty

def attempts (settings : Settings) (name : String) (found : List (List Char × Nat)) : List Attempt :=
  (entries found).map (attempt settings name)

def failures (attempts : List Attempt) : Nat :=
  attempts.countP fun attempt => attempt.result.isNone

/-- The tally when these attempts have been made as well. -/
def Tally.after (tally : Tally) (attempts : List Attempt) : Tally where
  total := tally.total + attempts.length
  failed := tally.failed + failures attempts
  events := tally.events ++ attempts.flatMap Attempt.events

section Steps
variable {settings : Settings} {name : String} {line : List Char × Nat} (tally : Tally)

theorem Tally.after_append (first later : List Attempt) :
    tally.after (first ++ later) = (tally.after first).after later := by
  have events : tally.events ++ (first ++ later).flatMap Attempt.events =
      tally.events ++ first.flatMap Attempt.events ++ later.flatMap Attempt.events := by
    rw [← Array.toList_inj]
    simp
  simp only [Tally.after, events, failures, List.countP_append, List.length_append, Nat.add_assoc]

theorem attempts_blank (blank : Text.trim line.1 = []) (found : List (List Char × Nat)) :
    attempts settings name (line :: found) = attempts settings name found := by
  simp [attempts, entries, blank]

theorem attempts_filled (filled : Text.trim line.1 ≠ []) (found : List (List Char × Nat)) :
    attempts settings name (line :: found) =
      attempt settings name ⟨line.2, Text.trim line.1⟩ :: attempts settings name found := by
  simp [attempts, entries, filled]

theorem Tally.add_eq : tally.add settings name line =
    tally.after (attempts settings name [line]) := by
  rw [Tally.add]
  by_cases blank : Text.trim line.1 = []
  · rw [attempts_blank blank]
    simp [blank, Tally.after, attempts, entries, failures]
  · rw [attempts_filled blank]
    cases failed : (attempt settings name ⟨line.2, Text.trim line.1⟩).result <;>
      simp [blank, failed, Tally.after, attempts, entries, failures]

theorem attempts_append (front back : List (List Char × Nat)) :
    attempts settings name (front ++ back) =
      attempts settings name front ++ attempts settings name back := by
  simp [attempts, entries]

theorem foldl_add (found : List (List Char × Nat)) :
    found.foldl (Tally.add settings name) tally = tally.after (attempts settings name found) := by
  induction found generalizing tally with
  | nil => simp [Tally.after, attempts, entries, failures]
  | cons line rest ih =>
      rw [List.foldl_cons, Tally.add_eq, ih, ← Tally.after_append, ← attempts_append]
      rfl

end Steps

section Runs
variable (settings : Settings) (name : String) (lines : List (List Char))

/-- The record behind all attempts. -/
def total (name : String) (attempts : List Attempt) : Note :=
  if 0 < failures attempts then .failed (failures attempts) attempts.length name
  else .converted attempts.length name

theorem run_eq : run settings name lines =
    { events := (attempts settings name (lines.zipIdx 1)).flatMap Attempt.events ++
        settings.log (total name (attempts settings name (lines.zipIdx 1)))
      failed := failures (attempts settings name (lines.zipIdx 1)) ≠ 0 } := by
  simp only [run, foldl_add, Tally.after, Tally.last, total, Nat.zero_add]
  simp

end Runs

end Batch

end Rpn
