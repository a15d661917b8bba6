import Rpn.CommandLine.Parse
/-!
What the options of a command line that is read tell about its arguments. Nothing is set that was not
given, so of two arguments that exclude each other the options show at most one.
-/
namespace Rpn

/-- The options are not what they are without this argument. -/
def Options.Uses (options : Options) : CommandLine.Argument → Prop
  | .file => options.file ≠ none
  | .flag .quiet => options.quiet = true
  | .flag .verbose => options.verbose = true
  | .flag .stdin => options.stdin = true
  | .flag .samples => options.samples = true
  | .flag .strict => options.strict = true
  | .flag .help => False
  | .setting .separator => options.separator ≠ ({} : Options).separator
  | .setting .maxErrors => options.maxErrors ≠ ({} : Options).maxErrors

namespace CommandLine

theorem bind_eq_ok {α β : Type} {first : Except Stop α} {next : α → Except Stop β} {result : β}
    (done : (first >>= next) = .ok result) : ∃ value, first = .ok value ∧ next value = .ok result := by
  cases first with
  | error reason => contradiction
  | ok value => exact ⟨value, rfl, done⟩

/-- All that the options show has been recorded. -/
def State.Backed (state : State) : Prop :=
  ∀ argument, state.options.Uses argument → argument ∈ state.given

/-- At most this argument is shown anew. -/
def AddsOnly (argument : Argument) (before after : Options) : Prop :=
  ∀ other, after.Uses other → other = argument ∨ before.Uses other

section Options
variable (options : Options)

theorem adds_file (path : String) : AddsOnly .file options { options with file := some path } := by
  intro other uses
  rcases other with _ | flag | setting
  · exact .inl rfl
  · exact .inr (by cases flag <;> exact uses)
  · exact .inr (by cases setting <;> exact uses)

theorem adds_separator (value : String) :
    AddsOnly (.setting .separator) options { options with separator := value } := by
  intro other uses
  rcases other with _ | flag | (_ | _)
  · exact .inr uses
  · exact .inr (by cases flag <;> exact uses)
  · exact .inl rfl
  · exact .inr uses

theorem adds_maxErrors (count : Nat) :
    AddsOnly (.setting .maxErrors) options { options with maxErrors := count } := by
  intro other uses
  rcases other with _ | flag | (_ | _)
  · exact .inr uses
  · exact .inr (by cases flag <;> exact uses)
  · exact .inr uses
  · exact .inl rfl

theorem adds_flag (flag : Flag) : AddsOnly (.flag flag) options (options.raise flag) := by
  intro other uses
  by_cases same : other = .flag flag
  · exact .inl same
  · right
    rcases other with _ | other | setting
    · cases flag <;> exact uses
    · cases flag <;> cases other <;> first | exact uses | contradiction
    · cases setting <;> cases flag <;> exact uses

end Options

namespace State
variable {state next : State}

theorem Backed.add {argument : Argument} {options : Options} (backed : state.Backed)
    (adds : AddsOnly argument state.options options) :
    Backed { state with options, given := state.given ++ [argument] } := by
  intro other uses
  rcases adds other uses with rfl | before
  · exact List.mem_append_right _ List.mem_cons_self
  · exact List.mem_append_left _ (backed other before)

theorem record_eq_ok {argument : Argument} {options : Options}
    (recorded : state.record argument options = .ok next) :
    next = { state with options, given := state.given ++ [argument] } := by
  rw [record] at recorded
  split at recorded
  · contradiction
  · exact (Except.ok.inj recorded).symm

theorem Backed.record {argument : Argument} {options : Options} (backed : state.Backed)
    (adds : AddsOnly argument state.options options)
    (recorded : state.record argument options = .ok next) : next.Backed := by
  rw [record_eq_ok recorded]
  exact backed.add adds

theorem Backed.recordSetting {setting : Setting} {value : String} (backed : state.Backed)
    (recorded : state.recordSetting setting value = .ok next) : next.Backed := by
  obtain ⟨named, first, later⟩ := bind_eq_ok recorded
  obtain rfl := record_eq_ok first
  cases setting with
  | separator =>
      obtain rfl := Except.ok.inj later
      exact backed.add (adds_separator state.options value)
  | maxErrors =>
      cases read : Count.read value.toList with
      | error error => simp only [read] at later; contradiction
      | ok count =>
          simp only [read] at later
          obtain rfl := Except.ok.inj later
          exact backed.add (adds_maxErrors state.options count)

theorem Backed.settle (backed : state.Backed) (settled : state.settle = .ok next) : next.Backed := by
  have dropped : Backed { state with pending := none } := backed
  cases waiting : state.pending with
  | none =>
      simp only [State.settle, waiting] at settled
      obtain rfl := Except.ok.inj settled
      exact dropped
  | some pending =>
      cases pending with
      | file path =>
          simp only [State.settle, waiting] at settled
          exact dropped.record (adds_file state.options path) settled
      | setting setting value =>
          cases value with
          | none =>
              simp only [State.settle, waiting] at settled
              contradiction
          | some value =>
              simp only [State.settle, waiting] at settled
              exact dropped.recordSetting settled

theorem Backed.takeFlag {flag : Flag} {detailed : Bool} (backed : state.Backed)
    (taken : state.takeFlag flag detailed = .ok next) : next.Backed := by
  obtain ⟨settled, first, later⟩ := bind_eq_ok taken
  by_cases help : flag = .help
  · subst help
    contradiction
  · have recorded : settled.record (.flag flag) (settled.options.raise flag) = .ok next := by
      cases flag <;> first | exact later | contradiction
    exact (backed.settle first).record (adds_flag _ flag) recorded

theorem Backed.takeLong {name : List Char} {value : Option (List Char)} (backed : state.Backed)
    (taken : state.takeLong name value = .ok next) : next.Backed := by
  rw [State.takeLong] at taken
  split at taken
  · split at taken
    · exact backed.takeFlag taken
    · contradiction
  · obtain ⟨settled, first, later⟩ := bind_eq_ok taken
    have settled := backed.settle first
    split at later
    · obtain rfl := Except.ok.inj later
      exact settled
    · exact settled.recordSetting later
  · contradiction

theorem Backed.takeLetters {letters : List Char} (backed : state.Backed)
    (taken : state.takeLetters letters = .ok next) : next.Backed := by
  induction letters generalizing state with
  | nil =>
      obtain rfl := Except.ok.inj taken
      exact backed
  | cons letter rest ih =>
      rw [State.takeLetters] at taken
      split at taken
      · obtain ⟨raised, first, later⟩ := bind_eq_ok taken
        exact ih (backed.takeFlag first) later
      · contradiction

theorem Backed.takeFile {text : String} (backed : state.Backed)
    (taken : state.takeFile text = .ok next) : next.Backed := by
  rw [State.takeFile] at taken
  split at taken
  · contradiction
  · obtain ⟨settled, first, later⟩ := bind_eq_ok taken
    have settled := backed.settle first
    obtain rfl := Except.ok.inj later
    exact settled

theorem Backed.takePlain {text : String} (backed : state.Backed)
    (taken : state.takePlain text = .ok next) : next.Backed := by
  rw [State.takePlain] at taken
  split at taken
  · obtain rfl := Except.ok.inj taken
    exact backed
  · exact backed.takeFile taken

theorem Backed.take {text : String} (backed : state.Backed) (taken : state.take text = .ok next) :
    next.Backed := by
  rw [State.take] at taken
  split at taken
  · exact backed.takeFile taken
  · split at taken
    · exact backed.takePlain taken
    · exact backed.takeLong taken
    · exact backed.takeLetters taken
    · obtain rfl := Except.ok.inj taken
      exact backed

theorem Backed.takeAll {words : List String} (backed : state.Backed)
    (taken : state.takeAll words = .ok next) : next.Backed := by
  induction words generalizing state with
  | nil => exact backed.settle taken
  | cons word rest ih =>
      obtain ⟨after, first, later⟩ := bind_eq_ok taken
      exact ih (backed.take first) later

theorem backed_initial : Backed {} := by
  intro argument uses
  rcases argument with _ | (_ | _ | _ | _ | _ | _) | (_ | _)
  all_goals exact absurd uses (by simp [Options.Uses])

end State

theorem conflict?_eq_none {given : List Argument} (none : conflict? given = none) {a b : Argument}
    (first : a ∈ given) (second : b ∈ given) : a.excludes b = false := by
  have alone := List.findSome?_eq_none_iff.mp none a first
  split at alone
  · rename_i empty
    have without := List.filter_eq_nil_iff.mp empty b second
    exact Bool.not_eq_true _ ▸ without
  · contradiction

/-- Options that are read never show two arguments of which one excludes the other. -/
theorem parse_exclusive {words : List String} {options : Options} (parsed : parse words = .ok options)
    {a b : Argument} (excludes : a.excludes b = true) : ¬ (options.Uses a ∧ options.Uses b) := by
  rintro ⟨first, second⟩
  obtain ⟨state, taken, rest⟩ := bind_eq_ok parsed
  have backed := State.backed_initial.takeAll taken
  split at rest
  · contradiction
  · rename_i none
    obtain rfl := Except.ok.inj rest
    have apart := conflict?_eq_none none (backed a first) (backed b second)
    rw [excludes] at apart
    contradiction

end CommandLine

end Rpn
