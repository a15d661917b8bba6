import Rpn.Proofs.BatchOutput
/-!
Lines typed at the prompt. What is answered to a line is what a batch writes for it behind the text
that is converted, so a session and a batch make the same of every line, and only the batch keeps in
mind that a line failed.
-/
namespace Rpn

namespace Session

/-- The text of a line without the blanks around it and its postfix form, where the line is not blank
and can be converted. -/
def entry? (settings : Settings) (line : String) : Option (String × String) :=
  let text := Text.trim line.toList
  if text.isEmpty then none
  else
    match toPostfix settings.mode text with
    | .ok symbols => some (String.ofList text, String.ofList (symbols.joined settings.separator))
    | .error _ => none

/-- A line that is not blank and cannot be converted. -/
def Fails (settings : Settings) (line : String) : Prop :=
  Text.trim line.toList ≠ [] ∧ Batch.Fails settings (Text.trim line.toList)

end Session

/-- What a batch writes for an entry. -/
def Batch.entryLine (entry : String × String) : String :=
  "shuntingYard(" ++ entry.1 ++ ") = " ++ entry.2

section Lines
variable (settings : Settings)

theorem answer_entry (line : String) :
    (Session.answer settings line.toList).flatMap Event.outputLines =
      ((Session.entry? settings line).map Prod.snd).toList := by
  rw [answer_outputLines, Session.entry?]
  split
  · rfl
  · cases toPostfix settings.mode (Text.trim line.toList) <;> rfl

theorem session_outputLines (lines : List String) :
    (Program.session settings lines).events.flatMap Event.outputLines =
      (lines.filterMap (Session.entry? settings)).map Prod.snd := by
  induction lines with
  | nil => rfl
  | cons line rest ih =>
      have split : (Program.session settings (line :: rest)).events =
          Session.answer settings line.toList ++ (Program.session settings rest).events := rfl
      rw [split, List.flatMap_append, answer_entry, ih, List.filterMap_cons]
      cases Session.entry? settings line <;> rfl

-- A batch trims its lines and passes over the blank ones just as the prompt does.
theorem entry?_output (line : String) :
    ((some (Text.trim line.toList)).filter fun text => !text.isEmpty).bind
        (Batch.output? settings) =
      (Session.entry? settings line).map fun entry => Batch.entryLine entry ++ "\n" := by
  rw [Session.entry?, Option.filter_some]
  cases (Text.trim line.toList).isEmpty with
  | true => rfl
  | false =>
      simp only [Bool.not_false, ↓reduceIte, Option.bind_some, Batch.output?]
      cases toPostfix settings.mode (Text.trim line.toList) <;> rfl

theorem filled_output (lines : List String) :
    (((lines.map String.toList).map Text.trim).filter fun text => !text.isEmpty).filterMap
        (Batch.output? settings) =
      (lines.filterMap (Session.entry? settings)).map fun entry => Batch.entryLine entry ++ "\n" := by
  rw [List.map_map, List.map_filterMap, ← List.filterMap_eq_filter, List.filterMap_filterMap,
    List.filterMap_map]
  congr 1
  funext line
  exact entry?_output settings line

end Lines

section Runs
variable {words : List String} {options : Options} {environment : Environment}
  {lines : List String}

theorem run_at_prompt (parsed : CommandLine.parse words = .ok options)
    (prompt : options.source = .prompt) (terminal : environment.terminal = some lines) :
    (Program.run words environment).output =
        unlines ((lines.filterMap (Session.entry? options.settings)).map Prod.snd) ∧
      (Program.run words environment).code = 0 := by
  have session : Program.report options environment = Program.session options.settings lines := by
    simp only [Program.report, Program.input, prompt, Program.perform, terminal]
  rw [Program.run, parsed]
  simp only [session]
  exact ⟨by rw [Program.write_output, session_outputLines], rfl⟩

theorem run_in_batch (parsed : CommandLine.parse words = .ok options)
    (single : ∀ line ∈ lines, '\n' ∉ line.toList)
    (reads : options.Reads environment ("\n".intercalate lines).toList) :
    (Program.run words environment).output =
        unlines ((lines.filterMap (Session.entry? options.settings)).map Batch.entryLine) ∧
      ((Program.run words environment).code = 1 ↔
        ∃ line ∈ lines, Session.Fails options.settings line) := by
  have apart : ∀ line ∈ lines.map String.toList, '\n' ∉ line := by
    intro text member
    obtain ⟨line, listed, rfl⟩ := List.mem_map.mp member
    exact single line listed
  have split : ("\n".intercalate lines).toList = ['\n'].intercalate (lines.map String.toList) :=
    String.toList_intercalate
  rw [split] at reads
  constructor
  · rw [output_of_reads parsed reads, Text.filledLines_joined apart, filled_output, unlines,
      List.map_map]
    rfl
  · rw [code_eq_one_iff parsed reads, Text.filledLines_joined apart]
    constructor
    · rintro ⟨text, member, fails⟩
      obtain ⟨listed, filled⟩ := List.mem_filter.mp member
      rw [List.map_map] at listed
      obtain ⟨line, there, rfl⟩ := List.mem_map.mp listed
      exact ⟨line, there, by simpa using filled, fails⟩
    · rintro ⟨line, member, filled, fails⟩
      refine ⟨Text.trim line.toList, List.mem_filter.mpr ⟨?_, by simpa using filled⟩, fails⟩
      rw [List.map_map]
      exact List.mem_map_of_mem member

end Runs

/-- Lines that are typed at the prompt and then form the source of a batch, each without a line feed
inside, give the same entries in the same order in both runs. The session writes the postfix form of
an entry, the batch the same behind the text of the entry; blank lines and lines that cannot be
converted give no entry. The session ends with code 0, whether or not the batch counts a failure. -/
theorem prompt_matches_batch {promptWords batchWords : List String} {session batch : Options}
    (parsed : CommandLine.parse promptWords = .ok session)
    (parsedBatch : CommandLine.parse batchWords = .ok batch)
    (mode : session.strict = batch.strict) (separator : session.separator = batch.separator)
    (prompt : session.source = .prompt) (lines : List String)
    (single : ∀ line ∈ lines, '\n' ∉ line.toList) {terminal source : Environment}
    (entered : terminal.terminal = some lines)
    (reads : batch.Reads source ("\n".intercalate lines).toList) :
    let entries := lines.filterMap (Session.entry? session.settings)
    (Program.run promptWords terminal).output = unlines (entries.map fun entry => entry.2) ∧
      (Program.run batchWords source).output =
        unlines (entries.map fun entry => "shuntingYard(" ++ entry.1 ++ ") = " ++ entry.2) ∧
      (Program.run promptWords terminal).code = 0 ∧
      ((Program.run batchWords source).code = 1 ↔
        ∃ line ∈ lines, Session.Fails session.settings line) := by
  have entry : Session.entry? batch.settings = Session.entry? session.settings := by
    funext line
    simp only [Session.entry?, Options.settings, mode, separator]
  have fails : Session.Fails batch.settings = Session.Fails session.settings := by
    funext line
    simp only [Session.Fails, Batch.Fails, Options.settings, mode]
  obtain ⟨answered, code⟩ := run_at_prompt parsed prompt entered
  obtain ⟨written, failed⟩ := run_in_batch parsedBatch single reads
  rw [entry] at written
  rw [fails] at failed
  exact ⟨answered, written, code, failed⟩

/-- Of the lines `1+2`, a blank one, `(3` and `()` the first converts, the third fails and the last has
no symbol. -/
theorem prompt_matches_batch_failing :
    let promptWords := ["--separator", " "]
    let batchWords := ["--stdin", "--separator", " "]
    let lines := ["1+2", "\t", "(3", " ()"]
    let terminal : Environment := { terminal := some lines }
    let source : Environment := { stdin := ("\n".intercalate lines).toUTF8 }
    (∀ line ∈ lines, '\n' ∉ line.toList) ∧
      (Program.run promptWords terminal).output = "1 2 +\n\n" ∧
      (Program.run batchWords source).output = "shuntingYard(1+2) = 1 2 +\nshuntingYard(()) = \n" ∧
      (Program.run promptWords terminal).code = 0 ∧ (Program.run batchWords source).code = 1 := by
  intro promptWords batchWords lines terminal source
  let session : Options := { separator := " " }
  let batch : Options := { stdin := true, separator := " " }
  have single : ∀ line ∈ lines, '\n' ∉ line.toList := by decide +kernel
  have reads : batch.Reads source ("\n".intercalate lines).toList := decode_toUTF8 _
  have parsed : CommandLine.parse promptWords = .ok session := rfl
  have parsedBatch : CommandLine.parse batchWords = .ok batch := rfl
  have fails : Session.Fails session.settings "(3" :=
    ⟨by decide +kernel, (Batch.fails_iff _ _).mp (by decide +kernel)⟩
  have entered : terminal.terminal = some lines := rfl
  obtain ⟨answered, written, code, failed⟩ :=
    prompt_matches_batch parsed parsedBatch rfl rfl rfl lines single entered reads
  refine ⟨single, ?_, ?_, code, failed.mpr ⟨"(3", by decide +kernel, fails⟩⟩
  · rw [answered]
    decide +kernel
  · rw [written]
    decide +kernel

end Rpn
