import Mathlib.Data.List.Forall2
import Rpn.Proofs.BatchOutput
import Rpn.Proofs.Pointing
import Rpn.Proofs.Visibility
/-!
What a batch reports. A run that is not quiet tells of each line in a block of its own: a result, with
a warning in front if it is incomplete, or the first errors and a summary of how many there are. So the
summaries and the results of a run add up to its lines that are not blank, and the summaries decide how
the run ends.
-/
namespace Rpn

namespace Event

/-- The events that are shown in every run that is not quiet. -/
def isTold : Event → Bool
  | .note record => record.level == .warn
  | _ => true

/-- An error that has no place in a line. -/
def isSummary : Event → Bool
  | .diagnostic report => report.severity == .error && report.label.isNone
  | _ => false

end Event

def shownEvents (options : Options) (environment : Environment) : List Event :=
  (Program.report options environment).events

/-- What is shown but for the details. -/
def toldEvents (options : Options) (environment : Environment) : List Event :=
  (shownEvents options environment).filter fun event => !event.isDetail

/-- What is said of a parenthesis without a partner. -/
inductive ParenError.Worded : ParenError → String → Prop where
  | unclosed : Worded .unclosed "unclosed '('"
  | unmatched : Worded .unmatched "unmatched ')'"

/-- What is said of a sequence that is not one expression. -/
inductive ShapeError.Worded : ShapeError → String → Prop where
  | missingOperand : Worded .missingOperand "operator is missing an operand"
  | extraOperands (count : Nat) :
      Worded (.extraOperands count) ("expected a single result, found " ++ toString count ++ " values")
  | empty : Worded .empty "empty expression"

/-- All errors of a text that is not converted, in the order of the text, with what is said of them. -/
inductive Faults (mode : Mode) (text : List Char) : List (Spanned String) → Prop where
  | characters {errors : List (Spanned String)} (strict : mode = .strict)
      (counted : errors.length = text.countP fun c => Invalid c) (found : ∃ c ∈ text, Invalid c)
      (ordered : errors.Pairwise fun first later => first.span.hi ≤ later.span.lo)
      (every : errors = (invalidFrom 0 text).map
        (Spanned.map fun c => "invalid character '" ++ toString c ++ "'")) : Faults mode text errors
  | paren {tokens : List Token} {reason : Spanned ParenError} {message : String}
      (scanned : scan mode text = .ok tokens) (unpaired : parse tokens = .error reason)
      (worded : reason.value.Worded message) : Faults mode text [⟨message, reason.span⟩]

/-- What is told of one line, trimmed, that goes by this name. -/
inductive Told (settings : Settings) (name : String) (text : List Char) : List Event → Prop where
  | blank (empty : text = []) : Told settings name text []
  | complete {symbols : Postfix} (converted : convert settings.mode text = .ok symbols) :
      Told settings name text
        [.result ("shuntingYard(".toList ++ text ++ ") = ".toList ++ symbols.joined settings.separator)]
  | incomplete {symbols : Postfix} {error : Spanned ShapeError} {record : Note} {message : String}
      (filled : text ≠ []) (converted : toPostfix settings.mode text = .ok symbols)
      (invalid : symbols.validate (Text.whole text) = .error error) (worded : error.value.Worded message)
      (level : record.level = .warn)
      (line : record.line = "[WARN ] yard::driver: " ++ name ++ ": " ++ message) :
      Told settings name text
        [.note record,
          .diagnostic { severity := .warning, message, label := some ⟨name, text, error.span⟩ },
          .result ("shuntingYard(".toList ++ text ++ ") = ".toList ++ symbols.joined settings.separator)]
  | failed {errors : List (Spanned String)} (faults : Faults settings.mode text errors) :
      Told settings name text
        ((errors.take settings.maxErrors).map (fun error => .diagnostic
            { severity := .error, message := error.value, label := some ⟨name, text, error.span⟩ }) ++
          [.diagnostic
            { severity := .error
              message := "could not convert " ++ name ++ " due to " ++ toString errors.length ++
                " previous " ++ (if errors.length > 1 then "errors" else "error") ++ " (" ++
                toString (min errors.length settings.maxErrors) ++ " emitted)"
              label := none }])

/-- The record behind all lines, which there is only with failures. -/
inductive LastTold (failures total : Nat) (name : String) : List Event → Prop where
  | clean (none : failures = 0) : LastTold failures total name []
  | failed {record : Note} (some : 0 < failures) (level : record.level = .warn)
      (line : record.line = "[WARN ] yard::driver: " ++ toString failures ++ " of " ++
        toString total ++ " expressions in " ++ name ++ " could not be converted") :
      LastTold failures total name [.note record]

section Notes
variable {mode : Mode} {text : List Char} {note : Note}

theorem Piece.note_untold {piece : Piece} (noted : piece.note? mode = some note) :
    (Event.note note).isTold = false := by
  cases piece with
  | token found =>
      obtain rfl := Option.some.inj noted
      rfl
  | invalid c =>
      cases mode with
      | strict => contradiction
      | tolerant =>
          obtain rfl := Option.some.inj noted
          rfl

theorem Shunting.Action.note_untold {action : Shunting.Action} (noted : action.note? = some note) :
    (Event.note note).isTold = false := by
  cases action with
  | operand | release => contradiction
  | negation | yield | hold | unmatched =>
      obtain rfl := Option.some.inj noted
      rfl

theorem trace_untold (member : note ∈ trace mode text) : (Event.note note).isTold = false := by
  rcases List.mem_append.mp member with member | member
  · obtain ⟨piece, _, noted⟩ := List.mem_filterMap.mp member
    exact Piece.note_untold noted
  · split at member
    · obtain ⟨action, _, noted⟩ := List.mem_filterMap.mp member
      exact Shunting.Action.note_untold noted
    · contradiction

theorem log_untold (settings : Settings) (text : List Char) :
    (Attempt.log settings text).filter Event.isTold = [] := by
  refine List.filter_eq_nil_iff.mpr fun event member => ?_
  obtain ⟨note, listed, logged⟩ := List.mem_flatMap.mp member
  rw [settings.mem_log note logged, Bool.not_eq_true]
  rcases List.mem_cons.mp listed with rfl | traced
  · rfl
  · exact trace_untold traced

/-- The line of a record that the driver warns with. -/
theorem line_of_warning (level : note.level = .warn) (origin : note.origin = .driver) :
    note.line = "[WARN ] yard::driver: " ++ note.message := by
  have before : "[" ++ Level.warn.column ++ "] " ++ Origin.driver.path ++ ": " =
      "[WARN ] yard::driver: " := by decide +kernel
  have line : note.line = "[" ++ note.level.column ++ "] " ++ note.origin.path ++ ": " ++
      note.message := rfl
  rw [line, level, origin, before]

theorem line_incomplete (name : String) (error : ShapeError) :
    (Note.incomplete name error).line =
      "[WARN ] yard::driver: " ++ name ++ ": " ++ error.message := by
  have message : (Note.incomplete name error).message = name ++ ": " ++ error.message := rfl
  have line := @line_of_warning (.incomplete name error) rfl rfl
  simp only [line, message, String.append_assoc]

theorem line_failed (failures total : Nat) (name : String) :
    (Note.failed failures total name).line = "[WARN ] yard::driver: " ++ toString failures ++
      " of " ++ toString total ++ " expressions in " ++ name ++ " could not be converted" := by
  have message : (Note.failed failures total name).message = toString failures ++ " of " ++
      toString total ++ " expressions in " ++ name ++ " could not be converted" := rfl
  have line := @line_of_warning (.failed failures total name) rfl rfl
  simp only [line, message, String.append_assoc]

end Notes

theorem ParenError.worded_message (error : ParenError) : error.Worded error.message := by
  cases error with
  | unclosed => exact .unclosed
  | unmatched => exact .unmatched

theorem ShapeError.worded_message (error : ShapeError) : error.Worded error.message := by
  cases error with
  | missingOperand => exact .missingOperand
  | extraOperands count => exact .extraOperands count
  | empty => exact .empty

section Errors
variable {mode : Mode} {text : List Char} {error : ConvertError}

theorem length_invalidFrom (offset : Nat) (text : List Char) :
    (invalidFrom offset text).length = text.countP fun c => Invalid c := by
  induction text generalizing offset with
  | nil => rfl
  | cons c rest ih =>
      by_cases invalid : Invalid c
      · simp [invalidFrom, invalid, ih]
      · simp [invalidFrom, invalid, ih]

theorem invalidFrom_ordered (offset : Nat) (text : List Char) :
    (invalidFrom offset text).Pairwise fun first later => first.span.hi ≤ later.span.lo := by
  induction text generalizing offset with
  | nil => exact .nil
  | cons c rest ih =>
      rw [invalidFrom]
      split
      · refine List.pairwise_cons.mpr ⟨fun item member => ?_, ih _⟩
        obtain ⟨front, back, _, place⟩ := mem_invalidFrom member
        rw [place]
        exact Nat.le_add_right _ _
      · exact ih _

theorem faults_of_toPostfix (failed : toPostfix mode text = .error error) :
    Faults mode text error.messages := by
  rcases toPostfix_eq_error failed with ⟨errors, scanned, rfl⟩ | ⟨tokens, reason, scanned, unpaired, rfl⟩
  · have every := scan_eq_error scanned
    cases mode with
    | tolerant =>
        rw [scan_tolerant] at scanned
        contradiction
    | strict =>
        have found : ∃ c ∈ text, Invalid c := by
          by_contra valid
          rw [scan_strict_valid fun c member invalid => valid ⟨c, member, invalid⟩] at scanned
          contradiction
        have messages : (ConvertError.scan errors).messages = (invalidFrom 0 text).map
            (Spanned.map fun c => "invalid character '" ++ toString c ++ "'") := by
          rw [ConvertError.messages, every, List.map_map]
          rfl
        refine .characters rfl ?_ found ?_ messages
        · rw [messages, List.length_map, length_invalidFrom]
        · rw [messages]
          exact List.pairwise_map.mpr (invalidFrom_ordered 0 text)
  · exact .paren scanned unpaired reason.value.worded_message

end Errors

theorem located_counts (name : String) (text : List Char) (errors : List (Spanned String)) :
    (errors.map (Attempt.located .error name text)).countP Event.isSummary = 0 ∧
      (errors.map (Attempt.located .error name text)).countP Event.isResult = 0 := by
  rw [List.countP_map, List.countP_map]
  exact ⟨List.countP_eq_zero.mpr fun _ _ => Bool.false_ne_true,
    List.countP_eq_zero.mpr fun _ _ => Bool.false_ne_true⟩

section Entries
variable {settings : Settings} {name : String} {entry : Batch.Entry} {symbols : Postfix}
  {error : ConvertError}

namespace Batch

/-- What a run that is not quiet tells of an entry. -/
def toldOf (settings : Settings) (name : String) (entry : Entry) : List Event :=
  (attempt settings.loud name entry).events.filter Event.isTold

theorem toldOf_converted (converted : toPostfix settings.mode entry.text = .ok symbols) :
    toldOf settings name entry =
      Attempt.warnings settings.loud s!"{name}:{entry.number}" entry.text symbols ++
        [.result (written settings entry.text symbols)] := by
  have mode : settings.loud.mode = settings.mode := rfl
  have kept : ∀ place : String,
      (Attempt.warnings settings.loud place entry.text symbols).filter Event.isTold =
        Attempt.warnings settings.loud place entry.text symbols := by
    intro place
    rw [Attempt.warnings]
    split <;> rfl
  simp only [toldOf, attempt, Attempt.ofText, mode, converted, Attempt.announce, List.filter_append,
    log_untold, kept, List.nil_append]
  rfl

theorem toldOf_failed (failed : toPostfix settings.mode entry.text = .error error) :
    toldOf settings name entry =
      Attempt.failures settings.loud s!"{name}:{entry.number}" entry.text error.messages := by
  have mode : settings.loud.mode = settings.mode := rfl
  have kept : ∀ place : String,
      (Attempt.failures settings.loud place entry.text error.messages).filter Event.isTold =
        Attempt.failures settings.loud place entry.text error.messages := by
    intro place
    rw [Attempt.failures_eq settings.loud place entry.text error.messages rfl]
    refine List.filter_eq_self.mpr fun event member => ?_
    rcases List.mem_append.mp member with located | summed
    · obtain ⟨message, _, rfl⟩ := List.mem_map.mp located
      rfl
    · obtain rfl := List.mem_singleton.mp summed
      rfl
  simp only [toldOf, attempt, Attempt.ofText, mode, failed, Attempt.announce, List.filter_append,
    log_untold, kept, List.nil_append]
  exact List.append_nil _

theorem told_toldOf (name : String) (entry : Entry) (filled : entry.text ≠ []) :
    Told settings s!"{name}:{entry.number}" entry.text (toldOf settings name entry) := by
  cases converted : toPostfix settings.mode entry.text with
  | ok symbols =>
      rw [toldOf_converted converted, Attempt.warnings]
      cases valid : symbols.validate (Text.whole entry.text) with
      | ok => exact .complete (by simp only [convert, converted, valid])
      | error reason =>
          exact .incomplete filled converted valid reason.value.worded_message rfl
            (line_incomplete _ reason.value)
  | error error =>
      rw [toldOf_failed converted, Attempt.failures_eq settings.loud _ entry.text error.messages rfl]
      exact .failed (faults_of_toPostfix converted)

/-- An entry has one summary or one result. -/
theorem counts_toldOf (settings : Settings) (name : String) (entry : Entry) :
    (toldOf settings name entry).countP Event.isSummary =
        (if (attempt settings.loud name entry).result.isNone then 1 else 0) ∧
      (toldOf settings name entry).countP Event.isSummary +
        (toldOf settings name entry).countP Event.isResult = 1 := by
  have result : (attempt settings.loud name entry).result =
      (toPostfix settings.mode entry.text).toOption := ofText_result settings.loud _ entry.text
  rw [result]
  cases converted : toPostfix settings.mode entry.text with
  | ok symbols =>
      rw [toldOf_converted converted, Attempt.warnings]
      split <;> exact ⟨rfl, rfl⟩
  | error error =>
      obtain ⟨noSummary, noResult⟩ := located_counts s!"{name}:{entry.number}" entry.text
        (error.messages.take settings.maxErrors)
      have limit : settings.loud.maxErrors = settings.maxErrors := rfl
      rw [toldOf_failed converted, Attempt.failures_eq settings.loud _ entry.text error.messages rfl,
        List.countP_append, List.countP_append, limit, noSummary, noResult]
      exact ⟨rfl, rfl⟩

end Batch

end Entries

section Lines
variable {settings : Settings} {name : String} {line : List Char × Nat}
  {found : List (List Char × Nat)} {blocks : List (List Event)}

/-- Each block tells of one of the lines, and all blocks together account for the attempts. -/
structure Accounts (settings : Settings) (name : String) (found : List (List Char × Nat))
    (attempts : List Attempt) (blocks : List (List Event)) : Prop where
  told : List.Forall₂ (fun line block => Told settings s!"{name}:{line.2}" (Text.trim line.1) block)
    found blocks
  events : (attempts.flatMap Attempt.events).filter Event.isTold = blocks.flatten
  failures : blocks.flatten.countP Event.isSummary = Batch.failures attempts
  total : blocks.flatten.countP Event.isSummary + blocks.flatten.countP Event.isResult =
    attempts.length

theorem Accounts.blank {attempts : List Attempt}
    (accounts : Accounts settings name found attempts blocks) (empty : Text.trim line.1 = []) :
    Accounts settings name (line :: found) attempts ([] :: blocks) where
  told := .cons (.blank empty) accounts.told
  events := accounts.events
  failures := accounts.failures
  total := accounts.total

theorem Accounts.cons {attempts : List Attempt}
    (accounts : Accounts settings name found attempts blocks) (filled : Text.trim line.1 ≠ []) :
    Accounts settings name (line :: found)
      (Batch.attempt settings.loud name ⟨line.2, Text.trim line.1⟩ :: attempts)
      (Batch.toldOf settings name ⟨line.2, Text.trim line.1⟩ :: blocks) := by
  obtain ⟨summaries, one⟩ := Batch.counts_toldOf settings name ⟨line.2, Text.trim line.1⟩
  constructor
  · exact .cons (Batch.told_toldOf name ⟨line.2, Text.trim line.1⟩ filled) accounts.told
  · rw [List.flatMap_cons, List.filter_append, accounts.events, List.flatten_cons, Batch.toldOf]
  · rw [List.flatten_cons, List.countP_append, summaries, accounts.failures, Nat.add_comm,
      Batch.failures, Batch.failures, List.countP_cons]
  · rw [List.flatten_cons, List.countP_append, List.countP_append, Nat.add_add_add_comm, one,
      accounts.total, List.length_cons, Nat.add_comm]

theorem attempts_accounted (settings : Settings) (name : String) (found : List (List Char × Nat)) :
    ∃ blocks, Accounts settings name found (Batch.attempts settings.loud name found) blocks := by
  induction found with
  | nil => exact ⟨[], .nil, rfl, rfl, rfl⟩
  | cons line found ih =>
      obtain ⟨blocks, accounts⟩ := ih
      by_cases empty : Text.trim line.1 = []
      · rw [Batch.attempts_blank empty]
        exact ⟨_, accounts.blank empty⟩
      · rw [Batch.attempts_filled empty]
        exact ⟨_, accounts.cons empty⟩

theorem length_attempts (settings : Settings) (name : String) (lines : List (List Char)) :
    (Batch.attempts settings name (lines.zipIdx 1)).length =
      lines.countP fun line => !(Text.trim line).isEmpty := by
  rw [Batch.attempts, Batch.entries, List.length_map, ← List.countP_eq_length_filter, List.countP_map]
  conv_rhs => rw [← List.zipIdx_map_fst 1 lines, List.countP_map]
  rfl

theorem lastTold_total (name : String) (attempts : List Attempt) :
    LastTold (Batch.failures attempts) attempts.length name
      ([Event.note (Batch.total name attempts)].filter Event.isTold) := by
  rw [Batch.total]
  split
  · rename_i some
    exact .failed some rfl (line_failed _ _ _)
  · rename_i none
    exact .clean (Nat.eq_zero_of_not_pos none)

theorem LastTold.counts {failures total : Nat} {last : List Event}
    (told : LastTold failures total name last) :
    last.countP Event.isSummary = 0 ∧ last.countP Event.isResult = 0 := by
  cases told with
  | clean => exact ⟨rfl, rfl⟩
  | failed => exact ⟨rfl, rfl⟩

theorem run_accounts (settings : Settings) (name : String) (lines : List (List Char)) :
    let told := (Batch.run settings.loud name lines).events.filter Event.isTold
    let failures := told.countP Event.isSummary
    let total := lines.countP fun line => !(Text.trim line).isEmpty
    (∃ blocks last,
      List.Forall₂ (fun line block => Told settings s!"{name}:{line.2}" (Text.trim line.1) block)
        (lines.zipIdx 1) blocks ∧
      LastTold failures total name last ∧ told = blocks.flatten ++ last) ∧
    failures + told.countP Event.isResult = total ∧
    (Batch.run settings name lines).failed = decide (0 < failures) := by
  intro told failures total
  let attempts := Batch.attempts settings.loud name (lines.zipIdx 1)
  obtain ⟨blocks, accounts⟩ := attempts_accounted settings name (lines.zipIdx 1)
  have last := lastTold_total name attempts
  have events : told =
      blocks.flatten ++ [Event.note (Batch.total name attempts)].filter Event.isTold := by
    rw [show told = (Batch.run settings.loud name lines).events.filter Event.isTold from rfl,
      Batch.run_eq, List.filter_append, accounts.events]
    rfl
  have length : attempts.length = total := length_attempts settings.loud name lines
  obtain ⟨noSummary, noResult⟩ := last.counts
  have summaries : failures = blocks.flatten.countP Event.isSummary := by
    rw [show failures = told.countP Event.isSummary from rfl, events, List.countP_append, noSummary,
      Nat.add_zero]
  have results : told.countP Event.isResult = blocks.flatten.countP Event.isResult := by
    rw [events, List.countP_append, noResult, Nat.add_zero]
  have failed : Batch.failures attempts = failures := accounts.failures.symm.trans summaries.symm
  rw [failed, length] at last
  refine ⟨⟨blocks, _, accounts.told, last, events⟩, ?_, ?_⟩
  · rw [summaries, results, accounts.total, length]
  · have reported : (Batch.run settings name lines).failed =
        decide (Batch.failures attempts ≠ 0) := by
      rw [Batch.run_shown, Batch.run_eq]
    rw [reported, failed]
    exact decide_eq_decide.mpr Nat.pos_iff_ne_zero.symm

end Lines

section Runs
variable {options : Options} {environment : Environment}

theorem isTold_eq (audible : options.quiet = false) (event : Event) :
    (!event.isDetail && options.settings.shows event) = event.isTold := by
  cases event with
  | result text => rfl
  | diagnostic report =>
      rw [Options.shows_diagnostic audible]
      rfl
  | note record =>
      rw [Event.isDetail, Event.isTold, Options.shows_note audible]
      cases options.verbose <;> cases record.level <;> rfl

theorem toldEvents_eq (audible : options.quiet = false) : toldEvents options environment =
    (Program.everything options environment).filter Event.isTold := by
  rw [toldEvents, shownEvents, Program.report_shown, List.filter_filter]
  congr 1
  funext event
  exact isTold_eq audible event

theorem shows_plain (audible : options.quiet = false) (plain : options.verbose = false)
    (event : Event) : options.settings.shows event = event.isTold := by
  cases event with
  | result text => rfl
  | diagnostic report => exact Options.shows_diagnostic audible report
  | note record =>
      rw [Event.isTold, Options.shows_note audible, plain]
      cases record.level <;> rfl

theorem shownEvents_eq (audible : options.quiet = false) (plain : options.verbose = false) :
    shownEvents options environment = toldEvents options environment := by
  rw [toldEvents_eq audible, shownEvents, Program.report_shown]
  congr 1
  funext event
  exact shows_plain audible plain event

theorem everything_of_feeds {name : String} {lines : List (List Char)}
    (feeds : options.Feeds environment name lines) : Program.everything options environment =
      (Batch.run options.settings.loud name lines).events := by
  obtain ⟨input, opened, runs⟩ := perform_of_feeds feeds
  simp only [Program.everything, opened, runs]

end Runs

/-- A run that is not quiet tells of every line of its source in order: nothing of a blank line, a result
of one that converts, with a warning if it is incomplete, and of one that fails the first errors, as
many as the limit allows, and one summary. Summaries and results add up to the lines that are not
blank. With at least one summary a last record gives both numbers and the code is 1, else 0. -/
theorem batch_accounts {words : List String} {options : Options}
    (parsed : CommandLine.parse words = .ok options) (audible : options.quiet = false)
    {environment : Environment} {name : String} {lines : List (List Char)}
    (feeds : options.Feeds environment name lines) :
    let told := toldEvents options environment
    let failures := told.countP Event.isSummary
    let total := lines.countP fun line => !(Text.trim line).isEmpty
    (∃ blocks last,
      List.Forall₂ (fun line block =>
        Told options.settings s!"{name}:{line.2}" (Text.trim line.1) block) (lines.zipIdx 1) blocks ∧
      LastTold failures total name last ∧ told = blocks.flatten ++ last) ∧
    failures + told.countP Event.isResult = total ∧
    (Program.run words environment).code = (if 0 < failures then 1 else 0) ∧
    (Program.run words environment).output = unlines (told.flatMap Event.outputLines) ∧
    (Program.run words environment).errors =
      unlines ((shownEvents options environment).flatMap Event.errorLines) ∧
    (options.verbose = false → shownEvents options environment = told) := by
  intro told failures total
  have reported := report_of_feeds feeds
  have events : told = (Batch.run options.settings.loud name lines).events.filter Event.isTold := by
    rw [← everything_of_feeds feeds]
    exact toldEvents_eq audible
  obtain ⟨blocks, accounted, failed⟩ := run_accounts options.settings name lines
  rw [← events] at blocks accounted failed
  refine ⟨blocks, accounted, ?_, ?_, ?_, shownEvents_eq audible⟩
  · rw [Program.run, parsed]
    simp only [Program.write_code, reported, failed, decide_eq_true_eq]
    rfl
  · have silent : ∀ event : Event, (!event.isDetail) = false → event.outputLines = [] := by
      intro event detail
      cases event with
      | result text => contradiction
      | note record => rfl
      | diagnostic report => contradiction
    rw [Program.run, parsed, show told = toldEvents options environment from rfl, toldEvents,
      flatMap_filter_silent silent]
    rfl
  · rw [Program.run, parsed]
    rfl

/-- Of the four lines one is blank and one fails with two errors. Of these one is shown, and both are
counted. -/
theorem batch_accounts_capped :
    let words := ["--stdin", "--strict", "--max-errors", "1"]
    let source := "\n1$2#\n1 2\n4+5"
    let environment : Environment := { stdin := source.toUTF8 }
    let options : Options := { stdin := true, strict := true, maxErrors := 1 }
    let told := toldEvents options environment
    let name := "<stdin>"
    (∃ blank failed incomplete complete last, Told options.settings s!"{name}:{1}" [] blank ∧
      Told options.settings s!"{name}:{2}" ['1', '$', '2', '#'] failed ∧
      Told options.settings s!"{name}:{3}" ['1', ' ', '2'] incomplete ∧
      Told options.settings s!"{name}:{4}" ['4', '+', '5'] complete ∧ LastTold 1 3 name last ∧
      told = [blank, failed, incomplete, complete].flatten ++ last) ∧
    told =
      [.diagnostic
          { severity := .error, message := "invalid character '$'"
            label := some ⟨"<stdin>:2", ['1', '$', '2', '#'], .sized 1 1⟩ },
        .diagnostic
          { severity := .error
            message := "could not convert <stdin>:2 due to 2 previous errors (1 emitted)" },
        .note (.incomplete "<stdin>:3" (.extraOperands 2)),
        .diagnostic
          { severity := .warning, message := "expected a single result, found 2 values"
            label := some ⟨"<stdin>:3", ['1', ' ', '2'], .sized 2 1⟩ },
        .result "shuntingYard(1 2) = 12".toList, .result "shuntingYard(4+5) = 45+".toList,
        .note (.failed 1 3 "<stdin>")] ∧
    told.countP Event.isResult = 2 ∧ (Program.run words environment).code = 1 := by
  intro words source environment options told name
  have parsed : CommandLine.parse words = .ok options := rfl
  have feeds : options.Feeds environment name (Text.lines source.toList) :=
    .stdin rfl (decode_toUTF8 source)
  have split : Text.lines source.toList =
      [[], ['1', '$', '2', '#'], ['1', ' ', '2'], ['4', '+', '5']] := by decide +kernel
  rw [split] at feeds
  have every : told = (Batch.run options.settings.loud name
      [[], ['1', '$', '2', '#'], ['1', ' ', '2'], ['4', '+', '5']]).events.filter Event.isTold := by
    rw [← everything_of_feeds feeds]
    exact toldEvents_eq rfl
  have one : told.countP Event.isSummary = 1 := by
    rw [every]
    decide +kernel
  obtain ⟨⟨blocks, last, lines, ends, events⟩, counts, code, _⟩ := batch_accounts parsed rfl feeds
  rw [one] at ends counts code
  simp only [List.zipIdx_cons, List.zipIdx_nil, List.forall₂_cons_left_iff,
    List.forall₂_nil_left_iff] at lines
  obtain ⟨blank, _, first, ⟨failed, _, second, ⟨incomplete, _, third, ⟨complete, _, fourth, rfl, rfl⟩,
    rfl⟩, rfl⟩, rfl⟩ := lines
  have results : 1 + told.countP Event.isResult = 3 := counts
  refine ⟨⟨_, _, _, _, _, first, second, third, fourth, ends, events⟩, ?_, by omega, code⟩
  rw [every]
  decide +kernel

end Rpn
