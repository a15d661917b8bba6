import Mathlib.Data.List.Forall2
import Mathlib.Data.List.Nodup
import Mathlib.Data.List.Perm.Basic
import Rpn.Proofs.Arguments
/-!
Command lines for a choice of options. The options may stand in any order and in any of their forms,
with the file behind them. A choice that does not clash is read back whole, whatever the texts of its
values are; what is read never depends on the order, since every option changes a field of its own.
-/
namespace Rpn

namespace CommandLine

/-- What a command line is to ask for; an option that is left out has its initial value. -/
structure Choice where
  quiet : Bool := false
  verbose : Bool := false
  stdin : Bool := false
  samples : Bool := false
  strict : Bool := false
  separator : Option String := none
  maxErrors : Option UInt64 := none
  file : Option String := none

/-- An option that is written on a command line, and its value where it has one. -/
inductive Item where
  | flag (flag : Flag)
  | separator (value : String)
  | maxErrors (count : UInt64)
deriving DecidableEq

/-- The text is a decimal numeral, perhaps with zeros in front. -/
structure Decimal (count : UInt64) (text : String) : Prop where
  filled : text.toList ≠ []
  digits : ∀ c ∈ text.toList, c.isDigit = true
  value : Nat.ofDigitChars 10 text.toList 0 = count.toNat

/-- The texts that an option can have as its value. -/
inductive Valued : Item → Setting → String → Prop where
  | separator (value : String) : Valued (.separator value) .separator value
  | maxErrors {count : UInt64} {text : String} (decimal : Decimal count text) :
      Valued (.maxErrors count) .maxErrors text

/-- The words that an option can be written as. A value on its own must not look like an option. -/
inductive Spelled : Item → List String → Prop where
  | long (flag : Flag) : Spelled (.flag flag) ["--" ++ flag.name]
  | short {flag : Flag} {letter : Char} (known : flag.letter? = some letter) :
      Spelled (.flag flag) [String.ofList ['-', letter]]
  | joined {item : Item} {setting : Setting} {text : String} (valued : Valued item setting text) :
      Spelled item ["--" ++ setting.name ++ "=" ++ text]
  | apart {item : Item} {setting : Setting} {text : String} (valued : Valued item setting text)
      (plain : text.toList.head? ≠ some '-') : Spelled item ["--" ++ setting.name, text]

namespace Item

def argument : Item → Argument
  | .flag raised => .flag raised
  | .separator _ => .setting .separator
  | .maxErrors _ => .setting .maxErrors

def apply (options : Options) : Item → Options
  | .flag raised => options.raise raised
  | .separator value => { options with separator := value }
  | .maxErrors count => { options with maxErrors := count.toNat }

end Item

namespace Choice

def options (choice : Choice) : Options where
  file := choice.file
  quiet := choice.quiet
  verbose := choice.verbose
  stdin := choice.stdin
  samples := choice.samples
  strict := choice.strict
  separator := choice.separator.getD ""
  maxErrors := (choice.maxErrors.map UInt64.toNat).getD 4

def raises (choice : Choice) : Flag → Bool
  | .quiet => choice.quiet
  | .verbose => choice.verbose
  | .stdin => choice.stdin
  | .samples => choice.samples
  | .strict => choice.strict
  | .help => false

/-- The options of the choice in one order. -/
def items (choice : Choice) : List Item :=
  (Flag.all.filter choice.raises).map .flag ++ (choice.separator.map .separator).toList ++
    (choice.maxErrors.map .maxErrors).toList

/-- The end of the options and the file. -/
def fileWords (choice : Choice) : List String :=
  match choice.file with
  | some path => ["--", path]
  | none => []

/-- Both extremes of what is shown are asked for, or more than one source. -/
def Clashes (choice : Choice) : Prop :=
  (choice.quiet = true ∧ choice.verbose = true) ∨
    2 ≤ choice.file.isSome.toNat + choice.stdin.toNat + choice.samples.toNat

end Choice

/-- Arguments are given together that exclude each other, or one of them twice. -/
def Stop.IsConflict : Stop → Prop
  | .usage (.conflict _ _ _) => True
  | .usage (.repeated _) => True
  | _ => False

section Words

theorem word_flag (flag : Flag) :
    Word.ofText ("--" ++ flag.name).toList = .long flag.name.toList none := by
  cases flag <;> rfl

theorem word_letter {flag : Flag} {letter : Char} (known : flag.letter? = some letter) :
    Word.ofText (String.ofList ['-', letter]).toList = .short [letter] := by
  cases flag <;> first | contradiction | (obtain rfl := Option.some.inj known; rfl)

theorem word_setting (setting : Setting) :
    Word.ofText ("--" ++ setting.name).toList = .long setting.name.toList none := by
  cases setting <;> rfl

theorem word_joined (setting : Setting) (text : String) :
    Word.ofText ("--" ++ setting.name ++ "=" ++ text).toList =
      .long setting.name.toList (some text.toList) := by
  rw [String.toList_append]
  cases setting <;> rfl

theorem word_plain {text : String} (plain : text.toList.head? ≠ some '-') :
    Word.ofText text.toList = .plain := by
  cases shape : text.toList with
  | nil => rfl
  | cons c rest =>
      rw [shape] at plain
      have other : c ≠ '-' := fun same => plain (congrArg some same)
      unfold Word.ofText
      split <;> simp_all

theorem ofName?_flag (flag : Flag) : Flag.ofName? flag.name = some flag := by
  cases flag <;> rfl

theorem ofLetter?_flag {flag : Flag} {letter : Char} (known : flag.letter? = some letter) :
    Flag.ofLetter? letter = some flag := by
  cases flag <;> first | contradiction | (obtain rfl := Option.some.inj known; rfl)

theorem ofName?_setting (setting : Setting) :
    Flag.ofName? setting.name = none ∧ Setting.ofName? setting.name = some setting := by
  cases setting <;> exact ⟨rfl, rfl⟩

end Words

section Numerals

theorem le_ofDigitChars (value : Nat) (digits : List Char) :
    value ≤ Nat.ofDigitChars 10 digits value := by
  induction digits generalizing value with
  | nil => exact Nat.le_refl _
  | cons c rest ih =>
      rw [Nat.ofDigitChars_cons]
      have grown := ih (10 * value + (c.toNat - '0'.toNat))
      omega

-- No digit of a numeral makes it leave the range when the whole of it does not.
theorem readDigits_eq_ok {digits : List Char} {value : Nat}
    (decimal : ∀ c ∈ digits, c.isDigit = true) (small : Nat.ofDigitChars 10 digits value < Count.bound) :
    Count.readDigits value digits = .ok (Nat.ofDigitChars 10 digits value) := by
  induction digits generalizing value with
  | nil => rfl
  | cons c rest ih =>
      obtain ⟨digit, others⟩ := List.forall_mem_cons.mp decimal
      rw [Nat.ofDigitChars_cons] at small ⊢
      have reached := le_ofDigitChars (10 * value + (c.toNat - '0'.toNat)) rest
      rw [Count.readDigits, Count.digit?, if_pos digit]
      simp only [if_pos (Nat.lt_of_le_of_lt reached small)]
      exact ih others small

theorem Decimal.read {count : UInt64} {text : String} (decimal : Decimal count text) :
    Count.read text.toList = .ok count.toNat := by
  have small : Nat.ofDigitChars 10 text.toList 0 < Count.bound := by
    rw [decimal.value]
    exact count.toNat_lt_size
  have read := readDigits_eq_ok decimal.digits small
  rw [decimal.value] at read
  cases shape : text.toList with
  | nil => exact absurd shape decimal.filled
  | cons c rest =>
      rw [shape] at read
      have digit := decimal.digits c (shape ▸ List.mem_cons_self)
      have other : c ≠ '+' := by
        rintro rfl
        contradiction
      unfold Count.read
      split <;> simp_all

end Numerals

/-- Such options have been read from the words before, of which the last may still be pending. -/
inductive State.Holds : State → List Argument → Options → Prop where
  | recorded {given : List Argument} {options : Options} : Holds { options, given } given options
  | pending {given : List Argument} {options : Options} {item : Item} {setting : Setting}
      {text : String} (valued : Valued item setting text) (new : item.argument ∉ given) :
      Holds { options, given, pending := some (.setting setting (some text)) }
        (given ++ [item.argument]) (item.apply options)

namespace State
variable {state : State} {given : List Argument} {options : Options} {item : Item}

theorem recordSetting_valued {setting : Setting} {text : String} (valued : Valued item setting text)
    (new : item.argument ∉ state.given) :
    state.recordSetting setting text =
      .ok { state with options := item.apply state.options, given := state.given ++ [item.argument] } := by
  have first (options : Options) : state.record item.argument options =
      .ok { state with options, given := state.given ++ [item.argument] } := if_neg new
  cases valued with
  | separator => exact congrArg (· >>= _) (first state.options)
  | @maxErrors count _ decimal =>
      refine (congrArg (· >>= _) (first state.options)).trans ?_
      simp only [bind, Except.bind, decimal.read]
      rfl

theorem Holds.settle (holds : state.Holds given options) (ended : Bool) :
    State.settle { state with optionsEnded := ended } = .ok { options, given, optionsEnded := ended } := by
  cases holds with
  | recorded => rfl
  | pending valued new => exact recordSetting_valued valued new

theorem Holds.hasFile (holds : state.Holds given options) (noFile : .file ∉ given) :
    state.hasFile = false := by
  cases holds with
  | recorded => simpa [State.hasFile] using noFile
  | pending valued new =>
      have before := fun named => noFile (List.mem_append_left _ named)
      simpa [State.hasFile] using before

theorem Holds.settle_open (holds : state.Holds given options) :
    state.settle = .ok { options, given } := by
  have same : { state with optionsEnded := false } = state := by cases holds <;> rfl
  exact same ▸ holds.settle false

theorem Holds.takeFlag (holds : state.Holds given options) {flag : Flag} (detailed : Bool)
    (new : .flag flag ∉ given) (raises : flag ≠ .help) :
    state.takeFlag flag detailed =
      .ok { options := options.raise flag, given := given ++ [.flag flag] } := by
  have recorded : State.record { options, given } (.flag flag) (options.raise flag) =
      .ok { options := options.raise flag, given := given ++ [.flag flag] } := if_neg new
  rw [State.takeFlag, holds.settle_open]
  cases flag <;> first | contradiction | exact recorded

theorem takeAll_cons {next : State} {word : String} (taken : state.take word = .ok next)
    (rest : List String) : state.takeAll (word :: rest) = next.takeAll rest := by
  rw [takeAll, taken]
  rfl

theorem Holds.take (holds : state.Holds given options) (word : String) :
    state.take word = match Word.ofText word.toList with
      | .plain => state.takePlain word
      | .long name value => state.takeLong name value
      | .short letters => state.takeLetters letters
      | .endOfOptions => .ok { state with optionsEnded := true } := by
  cases holds <;> rfl

/-- One option is read, in each of its forms, whatever stands behind it. -/
theorem Holds.takeItem {words : List String} (holds : state.Holds given options)
    (spelled : Spelled item words) (new : item.argument ∉ given) (raises : item ≠ .flag .help) :
    ∃ next : State, next.Holds (given ++ [item.argument]) (item.apply options) ∧
      ∀ rest, state.takeAll (words ++ rest) = next.takeAll rest := by
  cases spelled with
  | long flag =>
      refine ⟨_, .recorded, takeAll_cons ?_⟩
      rw [holds.take, word_flag]
      simp only [takeLong, String.ofList_toList, ofName?_flag, Option.map_none]
      exact holds.takeFlag true new fun same => raises (congrArg Item.flag same)
  | @short flag letter known =>
      refine ⟨_, .recorded, takeAll_cons ?_⟩
      have taken := holds.takeFlag false new fun same => raises (congrArg Item.flag same)
      rw [holds.take, word_letter known]
      simp only [takeLetters, ofLetter?_flag known, taken]
      rfl
  | @joined _ setting text valued =>
      obtain ⟨noFlag, known⟩ := ofName?_setting setting
      have recorded : State.recordSetting { options, given } setting text = .ok _ :=
        recordSetting_valued valued new
      refine ⟨_, .recorded, takeAll_cons ?_⟩
      rw [holds.take, word_joined]
      simp only [takeLong, String.ofList_toList, noFlag, known, holds.settle_open, bind, Except.bind,
        Option.map_some]
      exact recorded
  | @apart _ setting text valued plain =>
      refine ⟨_, .pending valued new, fun rest => ?_⟩
      obtain ⟨noFlag, known⟩ := ofName?_setting setting
      have named : state.take ("--" ++ setting.name) =
          .ok { options, given, pending := some (.setting setting none) } := by
        rw [holds.take, word_setting]
        simp only [takeLong, String.ofList_toList, noFlag, known, holds.settle_open, bind, Except.bind,
          Option.map_none]
        rfl
      have taken : State.take { options, given, pending := some (.setting setting none) } text =
          .ok { options, given, pending := some (.setting setting (some text)) } := by
        rw [State.take, word_plain plain]
        rfl
      exact (takeAll_cons named (text :: rest)).trans (takeAll_cons taken rest)

/-- All the options are read, in whatever order they stand. -/
theorem Holds.takeItems {order : List Item} {words : List (List String)}
    (holds : state.Holds given options) (spelled : List.Forall₂ Spelled order words)
    (distinct : (given ++ order.map Item.argument).Nodup) (raises : .flag .help ∉ order) :
    ∃ next : State, next.Holds (given ++ order.map Item.argument) (order.foldl Item.apply options) ∧
      ∀ rest, state.takeAll (words.flatten ++ rest) = next.takeAll rest := by
  induction spelled generalizing state given options with
  | nil => exact ⟨state, by simpa using holds, fun rest => rfl⟩
  | @cons item words order others first later ih =>
      have new : item.argument ∉ given := by grind
      obtain ⟨next, after, taken⟩ := holds.takeItem first new fun same => raises (by simp [same])
      rw [List.map_cons, List.append_cons] at distinct ⊢
      obtain ⟨last, reached, read⟩ := ih after distinct fun other => raises (List.mem_cons_of_mem _ other)
      refine ⟨last, reached, fun rest => ?_⟩
      rw [List.flatten_cons, List.append_assoc, taken, read]

/-- The file comes last. Nothing is pending then. -/
theorem Holds.takeFile (holds : state.Holds given options) (noFile : .file ∉ given) (path : String) :
    state.takeAll ["--", path] =
      .ok { options := { options with file := some path }, given := given ++ [.file],
            optionsEnded := true } := by
  have ended : state.take "--" = .ok { state with optionsEnded := true } := holds.take "--"
  have unnamed : State.hasFile { state with optionsEnded := true } = false := holds.hasFile noFile
  have taken : State.take { state with optionsEnded := true } path =
      .ok { options, given, pending := some (.file path), optionsEnded := true } := by
    change State.takeFile { state with optionsEnded := true } path = _
    simp only [State.takeFile, unnamed, holds.settle]
    rfl
  rw [takeAll_cons ended, takeAll_cons taken]
  exact if_neg noFile

end State

namespace Item

/-- Every option changes a field of its own. -/
theorem apply_comm {a b : Item} (apart : a.argument ≠ b.argument) (options : Options) :
    Item.apply (Item.apply options a) b = Item.apply (Item.apply options b) a := by
  cases a with
  | flag raised =>
      cases b with
      | flag other => cases raised <;> cases other <;> rfl
      | separator | maxErrors => cases raised <;> rfl
  | separator =>
      cases b with
      | flag raised => cases raised <;> rfl
      | separator => exact absurd rfl apart
      | maxErrors => rfl
  | maxErrors =>
      cases b with
      | flag raised => cases raised <;> rfl
      | separator => rfl
      | maxErrors => exact absurd rfl apart

end Item

namespace Choice
variable (choice : Choice)

/-- The choice has this argument. -/
def Gives : Argument → Prop
  | .file => choice.file.isSome = true
  | .flag flag => choice.raises flag = true
  | .setting .separator => choice.separator.isSome = true
  | .setting .maxErrors => choice.maxErrors.isSome = true

def fileArguments : List Argument := (choice.file.map fun _ => .file).toList

theorem items_arguments : choice.items.map Item.argument =
    (Flag.all.filter choice.raises).map .flag ++ (choice.separator.map fun _ => .setting .separator).toList ++
      (choice.maxErrors.map fun _ => .setting .maxErrors).toList := by
  cases separator : choice.separator <;> cases maxErrors : choice.maxErrors <;>
    simp [items, separator, maxErrors, Item.argument]

theorem mem_arguments (argument : Argument) :
    argument ∈ choice.items.map Item.argument ++ choice.fileArguments ↔ choice.Gives argument := by
  rw [items_arguments, fileArguments]
  rcases argument with _ | flag | (_ | _)
  · cases file : choice.file <;> simp [Gives, file]
  · cases flag <;> simp [Gives, Flag.all]
  · cases separator : choice.separator <;> simp [Gives, separator]
  · cases maxErrors : choice.maxErrors <;> simp [Gives, maxErrors]

theorem arguments_distinct : (choice.items.map Item.argument).Nodup := by
  have flags : ((Flag.all.filter choice.raises).map Argument.flag).Nodup :=
    .map (fun _ _ same => Argument.flag.inj same) (List.Nodup.filter _ (by decide))
  rw [items_arguments]
  cases choice.separator <;> cases choice.maxErrors <;>
    grind [Option.toList_none, Option.toList_some, List.nodup_append]

theorem foldl_items : choice.items.foldl Item.apply {} = { choice.options with file := none } := by
  rcases choice with ⟨_ | _, _ | _, _ | _, _ | _, _ | _, _ | _, _ | _, _⟩ <;> rfl

/-- The order of the options does not matter. -/
theorem foldl_order {order : List Item} (permuted : order.Perm choice.items) :
    order.foldl Item.apply {} = { choice.options with file := none } := by
  rw [← foldl_items]
  refine permuted.foldl_eq' (fun a first b second options => ?_) _
  have distinct := (permuted.map Item.argument).nodup_iff.mpr choice.arguments_distinct
  by_cases same : a.argument = b.argument
  · rw [List.inj_on_of_nodup_map distinct first second same]
  · exact Item.apply_comm same options

theorem clashes_iff :
    (∃ a b : Argument, a.excludes b = true ∧ choice.Gives a ∧ choice.Gives b) ↔ choice.Clashes := by
  have listed : (∃ a b : Argument, a.excludes b = true ∧ choice.Gives a ∧ choice.Gives b) ↔
      ∃ pair ∈ Argument.exclusions, choice.Gives pair.1 ∧ choice.Gives pair.2 := by
    simp only [Argument.excludes, Bool.or_eq_true, List.contains_iff_mem]
    grind
  rw [listed]
  rcases choice with ⟨quiet, verbose, stdin, samples, strict, separator, maxErrors, file⟩
  simp only [Argument.exclusions, Gives, Choice.raises, Clashes]
  cases quiet <;> cases verbose <;> cases stdin <;> cases samples <;> cases file <;> simp

/-- All of the choice is read, before it is looked at whether the arguments go together. -/
theorem takeAll_words {order : List Item} {words : List (List String)}
    (permuted : order.Perm choice.items) (spelled : List.Forall₂ Spelled order words) :
    ∃ state : State, State.takeAll {} (words.flatten ++ choice.fileWords) = .ok state ∧
      state.options = choice.options ∧ ∀ argument, argument ∈ state.given ↔ choice.Gives argument := by
  have same := permuted.map Item.argument
  have given : ∀ argument, argument ∈ order.map Item.argument ++ choice.fileArguments ↔
      choice.Gives argument := fun argument => by
    rw [← choice.mem_arguments, List.mem_append, List.mem_append, same.mem_iff]
  have raises : .flag .help ∉ order := fun asked =>
    absurd ((given (.flag .help)).mp (List.mem_append_left _ (List.mem_map_of_mem asked))) nofun
  have start : State.Holds {} [] {} := .recorded
  obtain ⟨next, holds, read⟩ := start.takeItems spelled
    (same.nodup_iff.mpr choice.arguments_distinct) raises
  rw [choice.foldl_order permuted, List.nil_append] at holds
  rw [read]
  cases file : choice.file with
  | none =>
      rw [fileArguments, file] at given
      rw [fileWords, file]
      refine ⟨_, holds.settle_open, ?_, fun argument => ?_⟩
      · rw [options, file]
      · simpa using given argument
  | some path =>
      have noFile : .file ∉ order.map Item.argument := fun named => by
        obtain ⟨item, _, isFile⟩ := List.mem_map.mp named
        cases item <;> contradiction
      rw [fileArguments, file] at given
      rw [fileWords, file]
      refine ⟨_, holds.takeFile noFile path, ?_, given⟩
      rw [options, file]

end Choice

theorem isConflict_of_conflict? {given : List Argument} {error : UsageError}
    (found : conflict? given = some error) : (Stop.usage error).IsConflict := by
  obtain ⟨argument, _, first⟩ := List.exists_of_findSome?_eq_some found
  split at first
  · contradiction
  · obtain rfl := Option.some.inj first
    trivial

theorem conflict?_isSome (given : List Argument) :
    (conflict? given).isSome = true ↔
      ∃ a b : Argument, a.excludes b = true ∧ a ∈ given ∧ b ∈ given := by
  constructor
  · intro found
    obtain ⟨error, found⟩ := Option.isSome_iff_exists.mp found
    obtain ⟨a, first, excluded⟩ := List.exists_of_findSome?_eq_some found
    split at excluded
    · contradiction
    · rename_i b others listed
      have second : b ∈ given.filter a.excludes := listed ▸ List.mem_cons_self
      exact ⟨a, b, (List.mem_filter.mp second).2, first, (List.mem_filter.mp second).1⟩
  · rintro ⟨a, b, excludes, first, second⟩
    cases found : conflict? given with
    | some error => rfl
    | none =>
        have apart := conflict?_eq_none found first second
        rw [excludes] at apart
        contradiction

end CommandLine

namespace Options

/-- The sources that are asked for. The prompt is what is left without any. -/
def AsksFor (options : Options) : Source → Prop
  | .samples => options.samples = true
  | .stdin => options.stdin = true
  | .file path => options.file = some path
  | .prompt => options.samples = false ∧ options.stdin = false ∧ options.file = none

end Options

namespace CommandLine

/-- Options that are read ask for one source only, which is the one that is used. -/
theorem source_iff {words : List String} {options : Options} (parsed : parse words = .ok options)
    (source : Source) : options.AsksFor source ↔ options.source = source := by
  have alone (a b : Argument) (excludes : a.excludes b = true) := parse_exclusive parsed excludes
  have samplesStdin := alone (.flag .samples) (.flag .stdin) rfl
  have samplesFile := alone (.flag .samples) .file rfl
  have stdinFile := alone (.flag .stdin) .file rfl
  simp only [Options.Uses] at samplesStdin samplesFile stdinFile
  unfold Options.source
  cases source <;> grind [Options.AsksFor]

/-- Options are read back from their words, in any order and in any form, unless they clash. Whatever
is read asks for one source, which is the one that is used. -/
theorem parse_round_trip (choice : Choice) {order : List Item} {words : List (List String)}
    (permuted : order.Perm choice.items) (spelled : List.Forall₂ Spelled order words) :
    ((∃ stop, parse (words.flatten ++ choice.fileWords) = .error stop ∧ stop.IsConflict) ↔
      choice.Clashes) ∧
    (¬ choice.Clashes → parse (words.flatten ++ choice.fileWords) = .ok choice.options) ∧
    ∀ (others : List String) (options : Options), parse others = .ok options →
      ∀ source, options.AsksFor source ↔ options.source = source := by
  obtain ⟨state, taken, read, given⟩ := choice.takeAll_words permuted spelled
  have decided : (conflict? state.given).isSome = true ↔ choice.Clashes := by
    rw [conflict?_isSome, ← choice.clashes_iff]
    simp only [given]
  have failed {error : UsageError} (found : conflict? state.given = some error) :
      parse (words.flatten ++ choice.fileWords) = .error (.usage error) := by
    simp only [parse, taken, bind, Except.bind, found]
    rfl
  have done (none : conflict? state.given = none) :
      parse (words.flatten ++ choice.fileWords) = .ok choice.options := by
    simp only [parse, taken, bind, Except.bind, none, read]
    rfl
  refine ⟨?_, ?_, fun others options parsed source => source_iff parsed source⟩
  · cases found : conflict? state.given with
    | some error =>
        refine iff_of_true ⟨_, failed found, isConflict_of_conflict? found⟩ ?_
        exact decided.mp (found ▸ rfl)
    | none =>
        have free : ¬ choice.Clashes := fun clashes => by
          have some := decided.mpr clashes
          rw [found] at some
          contradiction
        refine iff_of_false ?_ free
        rintro ⟨stop, stopped, _⟩
        rw [done found] at stopped
        contradiction
  · intro free
    cases found : conflict? state.given with
    | some error => exact absurd (decided.mp (found ▸ rfl)) free
    | none => exact done found

theorem parse_round_trip_reordered :
    parse ["--max-errors", "007", "-q", "--separator=-a=b", "--strict", "--", "--stdin"] =
      .ok { file := some "--stdin", quiet := true, strict := true, separator := "-a=b", maxErrors := 7 } := by
  let choice : Choice :=
    { quiet := true, strict := true, separator := some "-a=b", maxErrors := some 7, file := some "--stdin" }
  have permuted : List.Perm [.maxErrors 7, .flag .quiet, .separator "-a=b", .flag .strict] choice.items := by
    decide
  have decimal : Decimal 7 "007" := ⟨by decide, by simp, by decide⟩
  have spelled : List.Forall₂ Spelled [.maxErrors 7, .flag .quiet, .separator "-a=b", .flag .strict]
      [["--max-errors", "007"], ["-q"], ["--separator=-a=b"], ["--strict"]] :=
    .cons (.apart (.maxErrors decimal) (by decide)) <| .cons (.short rfl) <|
      .cons (.joined (.separator "-a=b")) <| .cons (.long .strict) .nil
  have free : ¬ choice.Clashes := by
    rintro (⟨_, both⟩ | many)
    · exact absurd both (by decide)
    · exact absurd many (by decide)
  exact (parse_round_trip choice permuted spelled).2.1 free

end CommandLine

end Rpn
