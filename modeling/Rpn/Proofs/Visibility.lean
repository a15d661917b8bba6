import Rpn.Proofs.Arguments
import Rpn.Proofs.Reports
/-!
What the verbosity has an influence on. It decides which log records and diagnostics are written, and
so does the limit for errors; the results and the exit code come out of the work that is done alone.
-/
namespace Rpn

/-- The options without those that only decide what is reported on the work. -/
def Options.work (options : Options) : Options :=
  { options with quiet := false, verbose := false, maxErrors := 0 }

namespace Event

def isResult : Event → Bool
  | .result _ => true
  | _ => false

/-- A log record of one of the two levels below a warning that can be shown. -/
def isDetail : Event → Bool
  | .note record => record.level == .debug || record.level == .info
  | _ => false

end Event

/-- The log records and diagnostics that a run with these options writes, in order. -/
def errorEvents (options : Options) (environment : Environment) : List Event :=
  (Program.report options environment).events.filter fun event => !event.isResult

/-- The reports write the same results and agree on whether the run failed. -/
def Report.Alike (first second : Report) : Prop :=
  first.events.flatMap Event.outputLines = second.events.flatMap Event.outputLines ∧
    first.failed = second.failed

section Work
variable {settings settings' : Settings} (mode : settings.mode = settings'.mode)
  (separator : settings.separator = settings'.separator)
include separator

theorem Batch.written_eq : written settings = written settings' := by
  cases settings
  cases settings'
  obtain rfl := separator
  rfl

include mode

theorem Batch.run_alike (name : String) (lines : List (List Char)) :
    (Batch.run settings name lines).Alike (Batch.run settings' name lines) := by
  have line : outputLine? settings = outputLine? settings' := by
    funext text
    rw [outputLine?, outputLine?, mode, written_eq separator]
  constructor
  · rw [Batch.run_outputLines, Batch.run_outputLines, line]
  · rw [Bool.eq_iff_iff, Batch.run_failed, Batch.run_failed, mode]

theorem Program.session_alike (lines : List String) :
    (Program.session settings lines).Alike (Program.session settings' lines) := by
  constructor
  · rw [Program.session, Program.session, List.flatMap_assoc, List.flatMap_assoc]
    congr 1
    funext line
    rw [answer_outputLines, answer_outputLines, mode, separator]
  · rfl

theorem Program.perform_alike (environment : Environment) (input : Program.Input) :
    (Program.perform settings environment input).Alike
      (Program.perform settings' environment input) := by
  cases input with
  | samples => exact Batch.run_alike mode separator _ _
  | text name content => exact Batch.run_alike mode separator _ _
  | prompt =>
      rw [Program.perform, Program.perform]
      cases environment.terminal with
      | some lines => exact Program.session_alike mode separator lines
      | none =>
          -- One of the two may show the diagnostic and the other not, but it is no output.
          refine ⟨?_, rfl⟩
          simp only [Program.unlabelled]
          split <;> split <;> rfl

end Work

section Runs
variable {words : List String} {options options' : Options} (environment : Environment)

theorem Program.input_eq (same : options.work = options'.work) :
    Program.input options environment = Program.input options' environment := by
  have source : ∀ options : Options, options.source = options.work.source := fun _ => rfl
  rw [Program.input, Program.input, source options, source options', same]

theorem Program.report_alike (same : options.work = options'.work) :
    (Program.report options environment).Alike (Program.report options' environment) := by
  have mode : ∀ options : Options, options.settings.mode = options.work.settings.mode := fun _ => rfl
  have separator : ∀ options : Options,
      options.settings.separator = options.work.settings.separator := fun _ => rfl
  rw [Program.report, Program.report, Program.input_eq environment same]
  cases Program.input options' environment with
  | ok input =>
      refine Program.perform_alike ?_ ?_ environment input
      · rw [mode options, mode options', same]
      · rw [separator options, separator options', same]
  | error message =>
      refine ⟨?_, rfl⟩
      dsimp only
      split <;> split <;> rfl

theorem Program.run_errors (parsed : CommandLine.parse words = .ok options) :
    (Program.run words environment).errors =
      unlines ((errorEvents options environment).flatMap Event.errorLines) := by
  have silent : ∀ event : Event, (!event.isResult) = false → event.errorLines = [] := by
    intro event result
    cases event with
    | result text => rfl
    | note record => contradiction
    | diagnostic report => contradiction
  rw [Program.run, parsed, errorEvents, flatMap_filter_silent silent]
  rfl

theorem errorEvents_eq : errorEvents options environment =
    (Program.everything options environment).filter fun event =>
      !event.isResult && options.settings.shows event := by
  rw [errorEvents, Program.report_shown, List.filter_filter]

theorem errorEvents_quiet (quiet : options.quiet = true) : errorEvents options environment = [] := by
  have verbosity : options.verbosity = .quiet := if_pos quiet
  rw [errorEvents_eq, List.filter_eq_nil_iff]
  intro event _
  cases event <;>
    simp [Event.isResult, Settings.shows, Options.settings, verbosity, quiet, Verbosity.threshold?]

theorem Options.shows_diagnostic (audible : options.quiet = false) (report : Diagnostic) :
    options.settings.shows (.diagnostic report) = true := by
  have quiet : options.settings.quiet = false := audible
  rw [Settings.shows, quiet]
  rfl

theorem Options.shows_note (audible : options.quiet = false) (record : Note) :
    options.settings.shows (.note record) =
      decide ((if options.verbose then Level.debug else .warn).rank ≤ record.level.rank) := by
  have level : options.settings.level = some (if options.verbose then .debug else .warn) := by
    rw [Options.settings, Options.verbosity, audible]
    cases options.verbose <;> rfl
  rw [Settings.shows, level]
  rfl

-- Of what only a verbose run shows, every record is a detail.
theorem shows_verbose (audible : options.quiet = false) (verbose : options.verbose = true)
    (audible' : options'.quiet = false) (plain : options'.verbose = false) (event : Event) :
    (!event.isDetail && (!event.isResult && options.settings.shows event)) =
      (!event.isResult && options'.settings.shows event) := by
  cases event with
  | result text => rfl
  | diagnostic report =>
      rw [Options.shows_diagnostic audible, Options.shows_diagnostic audible']
      rfl
  | note record =>
      rw [Event.isDetail, Options.shows_note audible, Options.shows_note audible', verbose, plain]
      cases record.level <;> rfl

theorem Program.everything_eq (same : options.work = options'.work)
    (limit : options'.maxErrors = options.maxErrors) :
    Program.everything options environment = Program.everything options' environment := by
  have whole : ∀ options : Options, options.settings.loud =
      { options.work.settings.loud with maxErrors := options.maxErrors } := fun _ => rfl
  rw [Program.everything, Program.everything, Program.input_eq environment same, whole options,
    whole options', same, limit]

theorem errorEvents_verbose (same : options.work = options'.work) (audible : options.quiet = false)
    (verbose : options.verbose = true) (audible' : options'.quiet = false)
    (plain : options'.verbose = false) (limit : options'.maxErrors = options.maxErrors) :
    (errorEvents options environment).filter (fun event => !event.isDetail) =
      errorEvents options' environment := by
  rw [errorEvents_eq, errorEvents_eq, Program.everything_eq environment same limit,
    List.filter_filter]
  congr 1
  funext event
  exact shows_verbose audible verbose audible' plain event

end Runs

/-- Options that differ in quietness, verbosity and the limit for errors only lead to the same output
and the same exit code, whatever can or cannot be read. A quiet run reports nothing, and a verbose one
reports details among what it reports without being verbose. -/
theorem verbosity_keeps_results {words words' : List String} {options options' : Options}
    (parsed : CommandLine.parse words = .ok options)
    (parsed' : CommandLine.parse words' = .ok options') (same : options.work = options'.work)
    (environment : Environment) :
    (Program.run words environment).output = (Program.run words' environment).output ∧
      (Program.run words environment).code = (Program.run words' environment).code ∧
      (Program.run words environment).errors =
        unlines ((errorEvents options environment).flatMap Event.errorLines) ∧
      (options.quiet = true → (Program.run words environment).errors = "") ∧
      (options.verbose = true → options'.verbose = false → options'.quiet = false →
        options'.maxErrors = options.maxErrors →
        (errorEvents options environment).filter (fun event => !event.isDetail) =
          errorEvents options' environment) := by
  obtain ⟨results, failed⟩ := Program.report_alike environment same
  refine ⟨?_, ?_, Program.run_errors environment parsed, ?_, ?_⟩
  · simp only [Program.run, parsed, parsed', Program.write_output, results]
  · simp only [Program.run, parsed, parsed', Program.write_code, failed]
  · intro quiet
    rw [Program.run_errors environment parsed, errorEvents_quiet environment quiet]
    rfl
  · intro verbose plain audible limit
    have loud : ¬ options.quiet = true := fun quiet =>
      CommandLine.parse_exclusive parsed (a := .flag .verbose) (b := .flag .quiet) rfl ⟨verbose, quiet⟩
    exact errorEvents_verbose environment same ((Bool.not_eq_true _).mp loud) verbose audible plain
      limit

/-- A verbose run, a quiet one and one that is neither, on a line that converts with a warning and a
line that fails, and on an input that cannot be read. -/
theorem verbosity_keeps_results_stdin :
    let environment : Environment := { stdin := "(4)-3\n(1".toUTF8 }
    let unreadable : Environment := { stdin := .error .isDirectory }
    (Program.run ["--stdin", "-v"] environment).output =
        (Program.run ["--stdin"] environment).output ∧
      (Program.run ["--stdin", "-v"] environment).code =
        (Program.run ["--stdin"] environment).code ∧
      (Program.run ["--stdin", "-q"] environment).errors = "" ∧
      (errorEvents { stdin := true, verbose := true } environment).filter
          (fun event => !event.isDetail) =
        errorEvents { stdin := true } environment ∧
      (Program.run ["--stdin", "-q"] unreadable).errors = "" ∧
      (Program.run ["--stdin", "-q"] unreadable).code = 1 ∧
      errorEvents { stdin := true } unreadable =
        [.diagnostic { message := "could not read stdin: Is a directory (os error 21)" }] := by
  intro environment unreadable
  have plain : CommandLine.parse ["--stdin"] = .ok { stdin := true } := rfl
  have verbose : CommandLine.parse ["--stdin", "-v"] = .ok { stdin := true, verbose := true } := rfl
  have quiet : CommandLine.parse ["--stdin", "-q"] = .ok { stdin := true, quiet := true } := rfl
  obtain ⟨output, code, _, _, details⟩ := verbosity_keeps_results verbose plain rfl environment
  obtain ⟨_, _, _, silent, _⟩ := verbosity_keeps_results quiet plain rfl environment
  obtain ⟨_, same, _, none, _⟩ := verbosity_keeps_results quiet plain rfl unreadable
  have failed : (Program.run ["--stdin"] unreadable).code = 1 := rfl
  exact ⟨output, code, silent rfl, details rfl rfl rfl rfl, none rfl, same.trans failed, rfl⟩

end Rpn
