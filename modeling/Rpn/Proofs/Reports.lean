import Rpn.Proofs.Shown
/-!
What a run writes on the standard output. Every result is shown, and nothing but a result is written
there, so the output depends on what is converted and on the separator alone.
-/
namespace Rpn

/-- Events that write nothing may be left out. -/
theorem flatMap_filter_silent {kept : Event → Bool} {written : Event → List String}
    (silent : ∀ event, kept event = false → written event = []) (events : List Event) :
    (events.filter kept).flatMap written = events.flatMap written := by
  induction events with
  | nil => rfl
  | cons event rest ih =>
      cases keeps : kept event with
      | true => rw [List.filter_cons_of_pos keeps, List.flatMap_cons, List.flatMap_cons, ih]
      | false =>
          rw [List.filter_cons_of_neg (by simp [keeps]), List.flatMap_cons, silent event keeps, ih]
          rfl

/-- Whatever the settings hide, the output is the same. -/
theorem shown_outputLines (settings : Settings) (events : List Event) :
    (events.filter settings.shows).flatMap Event.outputLines = events.flatMap Event.outputLines := by
  refine flatMap_filter_silent (fun event hidden => ?_) events
  cases event with
  | result text => contradiction
  | note record => rfl
  | diagnostic report => rfl

section Attempts
variable (settings : Settings) (name : String) (text : List Char)

theorem log_outputLines : (Attempt.log settings text).flatMap Event.outputLines = [] := by
  refine List.flatMap_eq_nil_iff.mpr fun event member => ?_
  obtain ⟨note, _, logged⟩ := List.mem_flatMap.mp member
  rw [settings.mem_log note logged]
  rfl

theorem warnings_outputLines (symbols : Postfix) :
    (Attempt.warnings settings name text symbols).flatMap Event.outputLines = [] := by
  rw [Attempt.warnings_shown, shown_outputLines, Attempt.warnings]
  split <;> rfl

theorem failures_outputLines (errors : List (Spanned String)) :
    (Attempt.failures settings name text errors).flatMap Event.outputLines = [] := by
  rw [Attempt.failures_shown, shown_outputLines, Attempt.failures_eq settings.loud name text errors rfl,
    List.flatMap_append, List.flatMap_map, List.append_eq_nil_iff]
  exact ⟨List.flatMap_eq_nil_iff.mpr fun message _ => rfl, rfl⟩

theorem ofText_result :
    (Attempt.ofText settings name text).result = (toPostfix settings.mode text).toOption := by
  rw [Attempt.ofText]
  cases toPostfix settings.mode text <;> rfl

theorem ofText_outputLines :
    (Attempt.ofText settings name text).events.flatMap Event.outputLines = [] := by
  rw [Attempt.ofText]
  cases toPostfix settings.mode text with
  | ok symbols => simp only [List.flatMap_append, log_outputLines, warnings_outputLines, List.append_nil]
  | error error => simp only [List.flatMap_append, log_outputLines, failures_outputLines, List.append_nil]

-- A result is written behind all that is reported, and it is the one line on the output.
theorem announce_outputLines (write : Postfix → List Char) :
    ((Attempt.ofText settings name text).announce write).events.flatMap Event.outputLines =
      ((toPostfix settings.mode text).toOption.map fun symbols =>
        String.ofList (write symbols)).toList := by
  rw [Attempt.announce, List.flatMap_append, ofText_outputLines, ofText_result]
  cases toPostfix settings.mode text <;> rfl

end Attempts

namespace Batch
variable (settings : Settings) (name : String) (lines : List (List Char))

theorem entries_texts : (entries (lines.zipIdx 1)).map Entry.text =
    (lines.map Text.trim).filter fun text => !text.isEmpty := by
  have texts : ((lines.zipIdx 1).map fun line => Entry.mk line.2 (Text.trim line.1)).map
      Entry.text = lines.map Text.trim := by
    rw [List.map_map, ← List.zipIdx_map_fst 1 lines, List.map_map, List.zipIdx_map_fst]
    rfl
  rw [entries, ← texts]
  exact (List.filter_map (f := Entry.text) (p := fun text => !text.isEmpty)).symm

/-- The line that is written for a text, without its ending. -/
def outputLine? (text : List Char) : Option String :=
  (toPostfix settings.mode text).toOption.map fun symbols =>
    String.ofList (written settings text symbols)

theorem run_outputLines : (run settings name lines).events.flatMap Event.outputLines =
    ((lines.map Text.trim).filter fun text => !text.isEmpty).filterMap (outputLine? settings) := by
  have tried : ∀ found : List Entry,
      ((found.map (attempt settings name)).flatMap Attempt.events).flatMap Event.outputLines =
        (found.map Entry.text).filterMap (outputLine? settings) := by
    intro found
    induction found with
    | nil => rfl
    | cons entry rest ih =>
        have head : (attempt settings name entry).events.flatMap Event.outputLines =
            (outputLine? settings entry.text).toList := announce_outputLines settings _ _ _
        rw [List.map_cons, List.flatMap_cons, List.flatMap_append, ih, head, List.map_cons,
          List.filterMap_cons]
        cases outputLine? settings entry.text <;> rfl
  have last : ∀ note, (settings.log note).flatMap Event.outputLines = [] := by
    intro note
    rw [Settings.log_shown, shown_outputLines]
    rfl
  rw [← entries_texts, run_eq, List.flatMap_append, attempts, tried, last, List.append_nil]

theorem run_failed : (run settings name lines).failed = true ↔
    ∃ text ∈ (lines.map Text.trim).filter fun text => !text.isEmpty,
      (toPostfix settings.mode text).toOption = none := by
  have fails : ∀ entry : Entry, (attempt settings name entry).result.isNone = true ↔
      (toPostfix settings.mode entry.text).toOption = none := by
    intro entry
    rw [attempt, Attempt.announce, ofText_result, Option.isNone_iff_eq_none]
  rw [← entries_texts, run_eq, failures, decide_eq_true_iff, ← Nat.pos_iff_ne_zero, List.countP_pos_iff]
  constructor
  · rintro ⟨tried, member, failed⟩
    obtain ⟨entry, listed, rfl⟩ := List.mem_map.mp member
    exact ⟨entry.text, List.mem_map_of_mem listed, (fails entry).mp failed⟩
  · rintro ⟨text, member, failed⟩
    obtain ⟨entry, listed, rfl⟩ := List.mem_map.mp member
    exact ⟨_, List.mem_map_of_mem listed, (fails entry).mpr failed⟩

end Batch

theorem answer_outputLines (settings : Settings) (line : List Char) :
    (Session.answer settings line).flatMap Event.outputLines =
      if (Text.trim line).isEmpty then []
      else ((toPostfix settings.mode (Text.trim line)).toOption.map fun symbols =>
        String.ofList (symbols.joined settings.separator)).toList := by
  rw [Session.answer]
  split
  · rfl
  · exact announce_outputLines settings _ _ _

namespace Program

theorem write_output (report : Report) :
    (write report).output = unlines (report.events.flatMap Event.outputLines) := rfl

theorem write_code (report : Report) : (write report).code = if report.failed then 1 else 0 := rfl

end Program

end Rpn
