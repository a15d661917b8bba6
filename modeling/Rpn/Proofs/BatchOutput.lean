import Rpn.Proofs.Lines
import Rpn.Proofs.Reports
/-!
Batches work line by line. What a run writes is put together from what every line on its own writes,
and the run fails when a line fails, so a line feed between two texts separates their runs as well.
-/
namespace Rpn

/-- The options name one source, and it holds this text. -/
def Options.Reads (options : Options) (environment : Environment) (text : List Char) : Prop :=
  match options.source with
  | .stdin => environment.stdin.bind decode = .ok text
  | .file path => (environment.file path).bind decode = .ok text
  | .samples | .prompt => False

/-- The source that the options name has these lines, and it goes by this name in reports. -/
inductive Options.Feeds (options : Options) (environment : Environment) :
    String → List (List Char) → Prop where
  | samples (named : options.source = .samples) :
      Feeds options environment "<samples>" (Rpn.samples.map String.toList)
  | stdin {text : List Char} (named : options.source = .stdin)
      (read : environment.stdin.bind decode = .ok text) :
      Feeds options environment "<stdin>" (Text.lines text)
  | file {path : String} {text : List Char} (named : options.source = .file path)
      (read : (environment.file path).bind decode = .ok text) :
      Feeds options environment path (Text.lines text)

namespace Batch

/-- What a line that is not blank writes, the line trimmed. -/
def output? (settings : Settings) (line : List Char) : Option String :=
  match toPostfix settings.mode line with
  | .ok symbols => some ("shuntingYard(" ++ String.ofList line ++ ") = " ++
      String.ofList (symbols.joined settings.separator) ++ "\n")
  | .error _ => none

def Fails (settings : Settings) (line : List Char) : Prop :=
  ∃ error, toPostfix settings.mode line = .error error

section Lines
variable (settings : Settings)

theorem ofList_written (line : List Char) (symbols : Postfix) :
    String.ofList (written settings line symbols) = "shuntingYard(" ++ String.ofList line ++ ") = " ++
      String.ofList (symbols.joined settings.separator) := by
  have shape : ∀ answer : List Char,
      String.ofList ("shuntingYard(".toList ++ line ++ ") = ".toList ++ answer) =
        "shuntingYard(" ++ String.ofList line ++ ") = " ++ String.ofList answer := by
    intro answer
    rw [String.ofList_append, String.ofList_append, String.ofList_append, String.ofList_toList,
      String.ofList_toList]
  exact shape _

theorem output?_eq (line : List Char) :
    (outputLine? settings line).map (· ++ "\n") = output? settings line := by
  rw [outputLine?, output?]
  cases toPostfix settings.mode line with
  | error error => simp only [Except.toOption, Option.map_none]
  | ok symbols => simp only [Except.toOption, Option.map_some, ofList_written]

theorem fails_iff (line : List Char) :
    (toPostfix settings.mode line).toOption = none ↔ Fails settings line := by
  rw [Fails]
  cases toPostfix settings.mode line with
  | ok symbols => simp [Except.toOption]
  | error error => simp [Except.toOption]

theorem unlines_outputLines (lines : List (List Char)) :
    unlines (lines.filterMap (outputLine? settings)) =
      String.join (lines.filterMap (output? settings)) := by
  rw [unlines, List.map_filterMap]
  congr 2
  funext line
  exact output?_eq settings line

end Lines

end Batch

theorem decode_toUTF8 (text : String) : decode text.toUTF8 = .ok text.toList := by
  have valid : text.toUTF8.IsValidUTF8 := text.isValidUTF8
  rw [decode, String.fromUTF8?, dif_pos valid]
  rfl

section Runs
variable {words : List String} {options : Options} {environment : Environment} {text : List Char}

theorem perform_of_feeds {name : String} {lines : List (List Char)}
    (feeds : options.Feeds environment name lines) :
    ∃ input, Program.input options environment = .ok input ∧
      ∀ settings, Program.perform settings environment input = Batch.run settings name lines := by
  cases feeds with
  | samples named =>
      exact ⟨.samples, by simp only [Program.input, named], fun _ => rfl⟩
  | stdin named read =>
      exact ⟨.text "<stdin>" _, by simp only [Program.input, named, Program.read, read], fun _ => rfl⟩
  | file named read =>
      exact ⟨.text name _, by simp only [Program.input, named, Program.read, read], fun _ => rfl⟩

theorem report_of_feeds {name : String} {lines : List (List Char)}
    (feeds : options.Feeds environment name lines) :
    Program.report options environment = Batch.run options.settings name lines := by
  obtain ⟨input, opened, runs⟩ := perform_of_feeds feeds
  simp only [Program.report, opened, runs]

theorem report_of_reads (reads : options.Reads environment text) :
    ∃ name, Program.report options environment =
      Batch.run options.settings name (Text.lines text) := by
  rw [Options.Reads] at reads
  cases named : options.source with
  | samples => rw [named] at reads; contradiction
  | prompt => rw [named] at reads; contradiction
  | stdin =>
      rw [named] at reads
      exact ⟨_, report_of_feeds (.stdin named reads)⟩
  | file path =>
      rw [named] at reads
      exact ⟨_, report_of_feeds (.file named reads)⟩

theorem output_of_reads (parsed : CommandLine.parse words = .ok options)
    (reads : options.Reads environment text) :
    (Program.run words environment).output =
      String.join ((Text.filledLines text).filterMap (Batch.output? options.settings)) := by
  obtain ⟨name, reported⟩ := report_of_reads reads
  rw [Program.run, parsed]
  simp only [reported]
  rw [Program.write_output, Batch.run_outputLines, Batch.unlines_outputLines]
  rfl

theorem code_of_reads (parsed : CommandLine.parse words = .ok options)
    (reads : options.Reads environment text) :
    ((Program.run words environment).code = 1 ∧
        ∃ line ∈ Text.filledLines text, Batch.Fails options.settings line) ∨
      (Program.run words environment).code = 0 ∧
        ¬ ∃ line ∈ Text.filledLines text, Batch.Fails options.settings line := by
  obtain ⟨name, reported⟩ := report_of_reads reads
  have failed := Batch.run_failed options.settings name (Text.lines text)
  simp only [Batch.fails_iff] at failed
  rw [Program.run, parsed]
  simp only [reported]
  rw [Program.write_code]
  by_cases fails : (Batch.run options.settings name (Text.lines text)).failed = true
  · exact .inl ⟨if_pos fails, failed.mp fails⟩
  · exact .inr ⟨if_neg fails, fun found => fails (failed.mpr found)⟩

theorem code_eq_one_iff (parsed : CommandLine.parse words = .ok options)
    (reads : options.Reads environment text) : (Program.run words environment).code = 1 ↔
      ∃ line ∈ Text.filledLines text, Batch.Fails options.settings line := by
  rcases code_of_reads parsed reads with ⟨code, found⟩ | ⟨code, none⟩
  · exact ⟨fun _ => found, fun _ => code⟩
  · rw [code]
    exact ⟨nofun, fun found => absurd found none⟩

end Runs

/-- A run on a source writes, in order, what each of its lines writes that is not blank and converts,
and its code tells whether a line fails. The run on two texts with a line feed between them writes what
the runs on both write, the one behind the other, and fails when one of them fails. -/
theorem batch_line_by_line {words : List String} {options : Options}
    (parsed : CommandLine.parse words = .ok options) :
    (∀ environment text, options.Reads environment text →
      (Program.run words environment).output =
        String.join ((Text.filledLines text).filterMap (Batch.output? options.settings)) ∧
      (((Program.run words environment).code = 1 ∧
          ∃ line ∈ Text.filledLines text, Batch.Fails options.settings line) ∨
        (Program.run words environment).code = 0 ∧
          ¬ ∃ line ∈ Text.filledLines text, Batch.Fails options.settings line)) ∧
    ∀ first second both front back, options.Reads first front → options.Reads second back →
      options.Reads both (front ++ '\n' :: back) →
      (Program.run words both).output =
        (Program.run words first).output ++ (Program.run words second).output ∧
      ((Program.run words both).code = 1 ↔
        (Program.run words first).code = 1 ∨ (Program.run words second).code = 1) := by
  constructor
  · intro environment text reads
    exact ⟨output_of_reads parsed reads, code_of_reads parsed reads⟩
  · intro first second both front back readsFront readsBack readsBoth
    constructor
    · rw [output_of_reads parsed readsBoth, Text.filledLines_cut, List.filterMap_append,
        String.join_append, output_of_reads parsed readsFront, output_of_reads parsed readsBack]
    · rw [code_eq_one_iff parsed readsBoth, code_eq_one_iff parsed readsFront,
        code_eq_one_iff parsed readsBack, Text.filledLines_cut]
      simp only [List.mem_append, or_and_right, exists_or]

/-- In the text `1+2`, a line feed, `(3` the first line converts and the second one fails. -/
theorem batch_line_by_line_failing :
    let words := ["--stdin", "--separator", " "]
    let source : String → Environment := fun text => { stdin := text.toUTF8 }
    (Program.run words (source "1+2")).output = "shuntingYard(1+2) = 1 2 +\n" ∧
      (Program.run words (source "1+2\n(3")).output =
        (Program.run words (source "1+2")).output ++ (Program.run words (source "(3")).output ∧
      (Program.run words (source "1+2\n(3")).code = 1 := by
  intro words source
  let options : Options := { stdin := true, separator := " " }
  have parsed : CommandLine.parse words = .ok options := rfl
  have reads : ∀ text, options.Reads (source text) text.toList := decode_toUTF8
  obtain ⟨alone, joined⟩ := batch_line_by_line parsed
  have converts := alone (source "1+2") _ (reads "1+2")
  have fails : (Program.run words (source "(3")).code = 1 := by
    rcases (alone (source "(3") _ (reads "(3")).2 with ⟨code, _⟩ | ⟨_, none⟩
    · exact code
    · have error : Batch.Fails options.settings "(3".toList :=
        (Batch.fails_iff _ _).mp (by decide +kernel)
      exact absurd ⟨"(3".toList, by decide +kernel, error⟩ none
  have both := joined (source "1+2") (source "(3") (source "1+2\n(3") _ _ (reads "1+2") (reads "(3")
    (reads "1+2\n(3")
  refine ⟨?_, both.1, both.2.mpr (.inr fails)⟩
  rw [converts.1]
  decide +kernel

end Rpn
