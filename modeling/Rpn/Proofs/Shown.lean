import Rpn.Program
import Rpn.Proofs.Tallies
/-!
What of a run is shown. Each part of the program has a check of its own: the logger for a record, and
one each for the errors of a text, for an incomplete result, for an editor that fails and for a source
that cannot be read. Together they let through what one rule on single events lets through, in the
order in which a run that hides nothing would show it.
-/
namespace Rpn

namespace Settings

/-- The settings with nothing hidden. -/
def loud (settings : Settings) : Settings := { settings with quiet := false, level := some .trace }

def shows (settings : Settings) : Event → Bool
  | .result _ => true
  | .note record => settings.level.any fun least => least.rank ≤ record.level.rank
  | .diagnostic _ => !settings.quiet

section Records
variable (settings : Settings) (note : Note)

theorem log_shown : settings.log note = [Event.note note].filter settings.shows := by
  rw [log, List.filter_cons, List.filter_nil]
  rfl

theorem log_loud : settings.loud.log note = [Event.note note] := rfl

theorem mem_log {event : Event} (member : event ∈ settings.log note) : event = .note note := by
  rw [log_shown] at member
  exact List.mem_singleton.mp (List.mem_filter.mp member).1

theorem flatMap_log_shown (notes : List Note) :
    notes.flatMap settings.log = (notes.flatMap settings.loud.log).filter settings.shows := by
  rw [List.filter_flatMap]
  congr 1
  funext note
  rw [log_loud, log_shown]

end Records

end Settings

-- The check that diagnostics stand behind, written out at each of them.
theorem shown_diagnostics (settings : Settings) {events : List Event}
    (all : ∀ event ∈ events, ∃ report, event = .diagnostic report) :
    (if settings.quiet then [] else events) = events.filter settings.shows := by
  cases quiet : settings.quiet with
  | false =>
      refine (List.filter_eq_self.mpr fun event member => ?_).symm
      obtain ⟨report, rfl⟩ := all event member
      rw [Settings.shows, quiet]
      rfl
  | true =>
      refine (List.filter_eq_nil_iff.mpr fun event member => ?_).symm
      obtain ⟨report, rfl⟩ := all event member
      rw [Settings.shows, quiet]
      exact Bool.false_ne_true

namespace Attempt
variable (settings : Settings) (name : String) (text : List Char)

theorem incomplete_shown (error : Spanned ShapeError) : incomplete settings name text error =
    (incomplete settings.loud name text error).filter settings.shows := by
  have single : ∀ event ∈ [located .warning name text (error.map ShapeError.message)],
      ∃ report, event = .diagnostic report := by
    intro event member
    exact ⟨_, List.mem_singleton.mp member⟩
  rw [incomplete, incomplete, List.filter_append, Settings.log_loud, ← Settings.log_shown,
    shown_diagnostics settings single]
  rfl

theorem warnings_shown (symbols : Postfix) : warnings settings name text symbols =
    (warnings settings.loud name text symbols).filter settings.shows := by
  rw [warnings, warnings]
  cases symbols.validate (Text.whole text) with
  | ok => rfl
  | error error => exact incomplete_shown settings name text error

theorem failures_shown (errors : List (Spanned String)) : failures settings name text errors =
    (failures settings.loud name text errors).filter settings.shows := by
  have diagnostics : ∀ event ∈ failures settings.loud name text errors,
      ∃ report, event = .diagnostic report := by
    intro event member
    rw [failures_eq settings.loud name text errors rfl] at member
    rcases List.mem_append.mp member with located | summed
    · obtain ⟨error, _, rfl⟩ := List.mem_map.mp located
      exact ⟨_, rfl⟩
    · exact ⟨_, List.mem_singleton.mp summed⟩
  rw [← shown_diagnostics settings diagnostics]
  rfl

theorem log_shown : log settings text = (log settings.loud text).filter settings.shows :=
  settings.flatMap_log_shown _

/-- The attempt with what is shown of it. -/
def seen (attempt : Attempt) : Attempt :=
  { attempt with events := attempt.events.filter settings.shows }

theorem ofText_shown : ofText settings name text = (ofText settings.loud name text).seen settings := by
  have mode : settings.loud.mode = settings.mode := rfl
  rw [ofText, ofText, mode]
  cases toPostfix settings.mode text with
  | ok symbols => simp only [seen, List.filter_append, log_shown settings, warnings_shown settings]
  | error error => simp only [seen, List.filter_append, log_shown settings, failures_shown settings]

-- A result is always shown.
theorem announce_seen (write : Postfix → List Char) (attempt : Attempt) :
    (attempt.seen settings).announce write = (attempt.announce write).seen settings := by
  have results : ∀ symbols, settings.shows (.result (write symbols)) = true := fun _ => rfl
  obtain ⟨result, events⟩ := attempt
  cases result <;> simp [seen, announce, results]

end Attempt

namespace Batch
variable (settings : Settings) (name : String)

theorem attempt_shown (entry : Entry) :
    attempt settings name entry = (attempt settings.loud name entry).seen settings := by
  rw [attempt, Attempt.ofText_shown, Attempt.announce_seen]
  rfl

theorem attempts_shown (found : List (List Char × Nat)) : attempts settings name found =
    (attempts settings.loud name found).map (Attempt.seen settings) := by
  rw [attempts, attempts, List.map_map]
  congr 1
  funext entry
  exact attempt_shown settings name entry

theorem failures_seen (tried : List Attempt) :
    failures (tried.map (Attempt.seen settings)) = failures tried := by
  rw [failures, failures, List.countP_map]
  rfl

theorem run_shown (lines : List (List Char)) : run settings name lines =
    { run settings.loud name lines with
      events := (run settings.loud name lines).events.filter settings.shows } := by
  rw [run_eq, run_eq, attempts_shown]
  simp only [total, failures_seen, List.length_map, List.filter_append, Settings.log_loud,
    ← Settings.log_shown, List.filter_flatMap, List.flatMap_map, Attempt.seen]

end Batch

theorem Session.answer_shown (settings : Settings) (line : List Char) :
    answer settings line = (answer settings.loud line).filter settings.shows := by
  rw [answer, answer]
  split
  · rfl
  · rw [Attempt.ofText_shown, Attempt.announce_seen]
    rfl

namespace Program
variable (settings : Settings) (environment : Environment)

theorem session_shown (lines : List String) :
    (session settings lines).events = (session settings.loud lines).events.filter settings.shows := by
  simp only [session, List.filter_flatMap]
  congr 1
  funext line
  exact Session.answer_shown settings line.toList

theorem perform_shown (input : Input) : (perform settings environment input).events =
    (perform settings.loud environment input).events.filter settings.shows := by
  cases input with
  | samples => exact congrArg Report.events (Batch.run_shown settings _ _)
  | text name content => exact congrArg Report.events (Batch.run_shown settings _ _)
  | prompt =>
      rw [perform, perform]
      cases environment.terminal with
      | some lines => exact session_shown settings lines
      | none => exact shown_diagnostics settings fun event member => ⟨_, List.mem_singleton.mp member⟩

/-- All that a run with these options could make known. -/
def everything (options : Options) (environment : Environment) : List Event :=
  match input options environment with
  | .ok input => (perform options.settings.loud environment input).events
  | .error message => [.diagnostic { message }]

theorem report_shown (options : Options) (environment : Environment) :
    (report options environment).events =
      (everything options environment).filter options.settings.shows := by
  rw [report, everything]
  cases input options environment with
  | ok input => exact perform_shown options.settings environment input
  | error message =>
      exact shown_diagnostics options.settings fun event member => ⟨_, List.mem_singleton.mp member⟩

end Program

end Rpn
