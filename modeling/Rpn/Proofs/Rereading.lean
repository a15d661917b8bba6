import Mathlib.Data.List.Chain
import Rpn.Proofs.Modes
import Rpn.Proofs.Tokenization
/-!
Reading what was read once more. The lexemes of the tokens of a text, with a blank between any two,
give the same kinds again. A list of kinds that was not read from a text gives itself again exactly
when it might have been: when it has no negation, its numbers are numerals, and none that starts with
a minus follows another number.
-/
namespace Rpn

/-- The lexemes with one blank between any two. -/
def spaced (kinds : List Kind) : List Char := [' '].intercalate (kinds.map Kind.lexeme)

/-- After a number a minus is read as a subtraction, so the second kind is not read as it stands. -/
def Separable (first second : Kind) : Prop :=
  ¬ (first.isNumber = true ∧ ∃ digits, second = .number ('-' :: digits))

structure Rereadable (kinds : List Kind) : Prop where
  unmarked : .operator .negate ∉ kinds
  numerals : ∀ lexeme, .number lexeme ∈ kinds → Numeral lexeme
  apart : kinds.IsChain Separable

section Spacing

/-- What stands behind the first lexeme. -/
def behindFirst : List Kind → List Char
  | [] => []
  | kind :: rest => ' ' :: spaced (kind :: rest)

theorem spaced_cons (kind : Kind) (rest : List Kind) :
    spaced (kind :: rest) = kind.lexeme ++ behindFirst rest := by
  cases rest with
  | nil => simp [spaced, behindFirst, List.intercalate]
  | cons next rest => simp [spaced, behindFirst, List.intercalate_cons_cons]

theorem touchesDigit_behindFirst (rest : List Kind) :
    Cursor.touchesDigit (behindFirst rest) = false := by
  cases rest with
  | nil => rfl
  | cons kind rest => rfl

theorem mem_spaced {kinds : List Kind} {c : Char} (member : c ∈ spaced kinds) :
    c = ' ' ∨ ∃ kind ∈ kinds, c ∈ kind.lexeme := by
  induction kinds with
  | nil => contradiction
  | cons kind rest ih =>
      rw [spaced_cons, List.mem_append] at member
      rcases member with here | later
      · exact .inr ⟨kind, List.mem_cons_self, here⟩
      · cases rest with
        | nil => contradiction
        | cons next rest =>
            rcases List.mem_cons.mp later with blank | later
            · exact .inl blank
            · rcases ih later with blank | ⟨other, inside, found⟩
              · exact .inl blank
              · exact .inr ⟨other, List.mem_cons_of_mem _ inside, found⟩

end Spacing

section Lexemes
variable {kind : Kind}

theorem lexical_iff : Lexical kind ↔
    kind ≠ .operator .negate ∧ ∀ lexeme, kind = .number lexeme → Numeral lexeme := by
  constructor
  · intro lexical
    refine ⟨lexical.ne_negate, ?_⟩
    rintro lexeme rfl
    exact lexical
  · rintro ⟨unmarked, numeral⟩
    cases kind with
    | number lexeme => exact numeral lexeme rfl
    | paren side => cases side <;> exact ⟨_, rfl, rfl⟩
    | operator op =>
        cases op with
        | negate => contradiction
        | binary op => cases op <;> exact ⟨_, rfl, rfl⟩

theorem Numeral.valid {lexeme : List Char} (numeral : Numeral lexeme) :
    ∀ c ∈ lexeme, ¬ Invalid c := by
  obtain ⟨digits, _, decimal, written⟩ := numeral
  have valid : ∀ c ∈ digits, ¬ Invalid c := fun c member => not_invalid_of_isDigit (decimal c member)
  rcases written with rfl | rfl
  · exact valid
  · intro c member
    rcases List.mem_cons.mp member with rfl | later
    · decide
    · exact valid c later

theorem Lexical.valid (lexical : Lexical kind) : ∀ c ∈ kind.lexeme, ¬ Invalid c := by
  intro c member
  cases kind with
  | number lexeme => exact Numeral.valid lexical c member
  | operator op =>
      obtain ⟨known, single, found⟩ := lexical
      rw [single, List.mem_singleton] at member
      exact member ▸ not_invalid_of_ofChar? found
  | paren side =>
      obtain ⟨known, single, found⟩ := lexical
      rw [single, List.mem_singleton] at member
      exact member ▸ not_invalid_of_ofChar? found

-- The kind behind a blank is read as it stands, whatever the blank before it follows.
theorem Lexical.begins (lexical : Lexical kind) {before : Kind} (apart : Separable before kind)
    {back : List Char} (stops : Cursor.touchesDigit back = false) :
    Begins before.isNumber kind back := by
  refine ⟨lexical, fun _ => stops, ?_⟩
  intro digit later same isDigit
  cases kind with
  | number lexeme =>
      obtain ⟨digits, filled, decimal, written⟩ := lexical
      have minus : lexeme = '-' :: digits := by
        rcases written with rfl | rfl
        · cases lexeme with
          | nil => contradiction
          | cons first rest =>
              obtain rfl : first = '-' := (List.cons.inj same).1
              exact absurd (decimal '-' List.mem_cons_self) (by decide)
        · rfl
      have free : before.isNumber = false := by
        rw [← Bool.not_eq_true]
        intro number
        exact apart ⟨number, digits, congrArg Kind.number minus⟩
      exact ⟨fun _ => free, fun _ => rfl⟩
  | operator op =>
      obtain ⟨known, single, found⟩ := lexical
      rw [single] at same
      obtain ⟨_, rfl⟩ := List.cons.inj same
      rw [Cursor.touchesDigit, isDigit] at stops
      contradiction
  | paren side =>
      obtain ⟨known, single, found⟩ := lexical
      rw [single] at same
      obtain ⟨_, rfl⟩ := List.cons.inj same
      rw [Cursor.touchesDigit, isDigit] at stops
      contradiction

end Lexemes

section Reading

def kindsOf (tokens : List Token) : List Kind := tokens.map Spanned.value

-- By induction on the kinds, the kind in front of them left open.
theorem kinds_spaced {before : Kind} {kinds : List Kind} (lexical : ∀ kind ∈ kinds, Lexical kind)
    (apart : (before :: kinds).IsChain Separable) (offset : Nat) :
    kindsOf (Cursor.mk (spaced kinds) offset before.isNumber).tokens = kinds := by
  induction kinds generalizing before offset with
  | nil =>
      rw [spaced, List.map_nil, List.intercalate_nil, Cursor.tokens_end]
      rfl
  | cons kind rest ih =>
      obtain ⟨here, later⟩ := List.isChain_cons_cons.mp apart
      have begins := (lexical kind List.mem_cons_self).begins here (touchesDigit_behindFirst rest)
      have tail : ∀ place,
          kindsOf (Cursor.mk (behindFirst rest) place kind.isNumber).tokens = rest := by
        intro place
        cases rest with
        | nil =>
            rw [behindFirst, Cursor.tokens_end]
            rfl
        | cons next rest =>
            rw [behindFirst, Cursor.tokens_skipped (skipped_of_isBlank rfl)]
            exact ih (fun other member => lexical other (List.mem_cons_of_mem _ member)) later _
      rw [spaced_cons, begins.tokens_eq, kindsOf, List.map_cons, ← kindsOf, tail]
      rfl

-- The last kind read is what decides about a minus, so it stands in front of the kinds read next.
theorem tokens_apart (text : List Char) (offset : Nat) (afterNumber : Bool) :
    ∀ before : Kind, before.isNumber = afterNumber →
      (before :: kindsOf (Cursor.mk text offset afterNumber).tokens).IsChain Separable := by
  induction text, offset, afterNumber using Cursor.tokens_induction with
  | done offset afterNumber =>
      intro before _
      rw [Cursor.tokens_end]
      exact .singleton before
  | skipped c rest offset afterNumber skipped ih =>
      rw [Cursor.tokens_skipped skipped]
      exact ih
  | numeral c rest offset afterNumber begins ih =>
      intro before number
      rw [Cursor.tokens_numeral begins]
      apply List.isChain_cons_cons.mpr
      refine ⟨?_, ih _ rfl⟩
      rintro ⟨counted, digits, same⟩
      obtain ⟨rfl, _⟩ := List.cons.inj (Kind.number.inj same)
      rw [← number, counted] at begins
      exact absurd begins (by simp [Cursor.beginsNumeral])
  | sign c rest offset afterNumber kind single known ih =>
      intro before _
      have plain := (ofChar?_eq_some known).2.1
      rw [Cursor.tokens_single single known]
      apply List.isChain_cons_cons.mpr
      refine ⟨?_, ih kind plain⟩
      rintro ⟨_, digits, same⟩
      obtain rfl : kind = _ := same
      contradiction

theorem rereadable_tokens (text : List Char) : Rereadable (kindsOf (Cursor.ofText text).tokens) := by
  have lexical : ∀ kind ∈ kindsOf (Cursor.ofText text).tokens, Lexical kind := by
    intro kind member
    obtain ⟨token, found, rfl⟩ := List.mem_map.mp member
    exact (tokenizes_iff.mpr rfl).lexical token found
  refine ⟨?_, ?_, ?_⟩
  · intro member
    exact (lexical _ member).ne_negate rfl
  · intro lexeme member
    exact lexical _ member
  · exact (tokens_apart text 0 false (.paren .opening) rfl).tail

theorem Rereadable.rereads {kinds : List Kind} (rereadable : Rereadable kinds) (mode : Mode) :
    ∃ tokens, scan mode (spaced kinds) = .ok tokens ∧ kindsOf tokens = kinds := by
  have lexical : ∀ kind ∈ kinds, Lexical kind := by
    intro kind member
    apply lexical_iff.mpr
    refine ⟨fun same => rereadable.unmarked (same ▸ member), ?_⟩
    rintro lexeme rfl
    exact rereadable.numerals lexeme member
  have valid : ∀ c ∈ spaced kinds, ¬ Invalid c := by
    intro c member
    rcases mem_spaced member with rfl | ⟨kind, inside, found⟩
    · decide
    · exact (lexical kind inside).valid c found
  have scanned : scan mode (spaced kinds) = .ok (Cursor.ofText (spaced kinds)).tokens := by
    cases mode with
    | tolerant => exact scan_tolerant _
    | strict => exact scan_strict_valid valid
  have start : (Kind.paren .opening :: kinds).IsChain Separable := by
    cases kinds with
    | nil => exact .singleton _
    | cons kind rest => exact List.isChain_cons_cons.mpr ⟨nofun, rereadable.apart⟩
  exact ⟨_, scanned, kinds_spaced lexical start 0⟩

/-- A list of kinds is read back from its spaced lexemes exactly when it is rereadable, and what is
read from a text always is. -/
theorem rereading_exact :
    (∀ mode kinds, (∃ tokens, scan mode (spaced kinds) = .ok tokens ∧ kindsOf tokens = kinds) ↔
      Rereadable kinds) ∧
    ∀ mode text tokens, scan mode text = .ok tokens → Rereadable (kindsOf tokens) ∧
      ∀ mode, ∃ again, scan mode (spaced (kindsOf tokens)) = .ok again ∧
        kindsOf again = kindsOf tokens := by
  have read : ∀ mode text tokens, scan mode text = .ok tokens → Rereadable (kindsOf tokens) := by
    intro mode text tokens scanned
    rw [scan_eq_ok scanned]
    exact rereadable_tokens text
  constructor
  · intro mode kinds
    constructor
    · rintro ⟨tokens, scanned, rfl⟩
      exact read mode _ tokens scanned
    · intro rereadable
      exact rereadable.rereads mode
  · intro mode text tokens scanned
    have rereadable := read mode text tokens scanned
    exact ⟨rereadable, rereadable.rereads⟩

/-- `1-2` is read as a subtraction, and it is one still with blanks between the three tokens. Two
numbers with a minus on the second are never read. -/
theorem rereading_exact_subtraction :
    let subtraction : List Kind := [.number ['1'], .operator (.binary .sub), .number ['2']]
    let numbers : List Kind := [.number ['1'], .number ['-', '2']]
    (∃ tokens, scan .strict ['1', '-', '2'] = .ok tokens ∧ kindsOf tokens = subtraction) ∧
    (∃ again, scan .tolerant (spaced subtraction) = .ok again ∧ kindsOf again = subtraction) ∧
    ¬ ∃ again, scan .tolerant (spaced numbers) = .ok again ∧ kindsOf again = numbers := by
  intro subtraction numbers
  have scanned : scan .strict ['1', '-', '2'] = .ok [⟨.number ['1'], .sized 0 1⟩,
      ⟨.operator (.binary .sub), .sized 1 1⟩, ⟨.number ['2'], .sized 2 1⟩] := by decide +kernel
  refine ⟨⟨_, scanned, rfl⟩, (rereading_exact.2 _ _ _ scanned).2 .tolerant, ?_⟩
  rw [rereading_exact.1]
  intro rereadable
  have separable := (List.isChain_cons_cons.mp rereadable.apart).1
  exact separable ⟨rfl, ['2'], rfl⟩

end Reading

end Rpn
