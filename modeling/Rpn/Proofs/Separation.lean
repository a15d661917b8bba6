import Rpn.Proofs.Lines
import Rpn.Proofs.Pointing
/-!
Reading a result back. A separator that shares no character with numbers and operators stands only
where it was put, so a result that is written with it falls into its lexemes again. A lexeme says which
symbol it is: a negation has a sign of its own, and a minus with digits behind it is part of a number.
-/
namespace Rpn

namespace Text

/-- The parts of a text between the places where the separator stands. These are looked for from the
left, and the next `taken` characters belong to the one that was found last. -/
def splitFrom (separator : List Char) : Nat → List Char → List (List Char)
  | _, [] => [[]]
  | taken + 1, _ :: rest => splitFrom separator taken rest
  | 0, c :: rest =>
    if separator <+: c :: rest then [] :: splitFrom separator (separator.length - 1) rest
    else ontoFirst c (splitFrom separator 0 rest)

def split (separator text : List Char) : List (List Char) := splitFrom separator 0 text

end Text

/-- The separator is not empty, and no number and no operator is written with one of its characters. -/
structure Foreign (separator : List Char) : Prop where
  filled : separator ≠ []
  plain : ∀ c ∈ separator, c.isDigit = false ∧ c ∉ ['+', '-', '*', '/', '^', 'n']

def Operator.all : List Operator :=
  [.binary .sub, .binary .add, .binary .mul, .binary .div, .binary .pow, .negate]

section Numerals
variable {lexeme : List Char}

def unsigned : List Char → List Char
  | '-' :: digits => digits
  | digits => digits

theorem numeral_iff :
    Numeral lexeme ↔ unsigned lexeme ≠ [] ∧ (unsigned lexeme).all Char.isDigit = true := by
  rw [List.all_eq_true]
  constructor
  · rintro ⟨digits, filled, decimal, rfl | rfl⟩
    · have plain : unsigned lexeme = lexeme := by
        fun_cases unsigned lexeme with
        | case1 digits => exact absurd (decimal '-' List.mem_cons_self) (by decide)
        | case2 => rfl
      rw [plain]
      exact ⟨filled, decimal⟩
    · exact ⟨filled, decimal⟩
  · rintro ⟨filled, decimal⟩
    refine ⟨unsigned lexeme, filled, decimal, ?_⟩
    fun_cases unsigned lexeme with
    | case1 digits => exact .inr rfl
    | case2 => exact .inl rfl

instance : Decidable (Numeral lexeme) := decidable_of_iff _ numeral_iff.symm

theorem Numeral.ne_sign (numeral : Numeral lexeme) (op : Operator) : lexeme ≠ [op.sign] := by
  rintro rfl
  obtain ⟨digits, filled, decimal, rfl | signed⟩ := numeral
  · refine absurd (decimal op.sign List.mem_cons_self) ?_
    rcases op with (_ | _ | _ | _ | _) | _ <;> decide +kernel
  · exact filled (List.cons.inj signed).2.symm

end Numerals

/-- The symbol that is written as the characters. -/
def Symbol.read? (lexeme : List Char) : Option Symbol :=
  match Operator.all.find? fun op => lexeme = [op.sign] with
  | some op => some (.operator op)
  | none => if Numeral lexeme then some (.number lexeme) else none

/-- The symbols of a result that is written with the separator. Nothing stands for no symbol. -/
def Postfix.read? (separator text : List Char) : Option (List Symbol) :=
  if text = [] then some [] else (Text.split separator text).mapM Symbol.read?

namespace Text

section Splitting
variable {separator part rest : List Char} {parts later : List (List Char)} {c : Char}

theorem splitFrom_taken (taken rest : List Char) :
    splitFrom separator taken.length (taken ++ rest) = split separator rest := by
  induction taken with
  | nil => rfl
  | cons c taken ih => exact ih

theorem split_separator (filled : separator ≠ []) (rest : List Char) :
    split separator (separator ++ rest) = [] :: split separator rest := by
  cases separator with
  | nil => contradiction
  | cons first others =>
      have found : first :: others <+: first :: (others ++ rest) := List.prefix_append _ _
      rw [split, List.cons_append, splitFrom, if_pos found]
      exact congrArg _ (splitFrom_taken others rest)

theorem split_plain (filled : separator ≠ []) (plain : c ∉ separator) (rest : List Char) :
    split separator (c :: rest) = ontoFirst c (split separator rest) := by
  have elsewhere : ¬ separator <+: c :: rest := by
    cases separator with
    | nil => contradiction
    | cons first others =>
        rw [List.cons_prefix_cons]
        rintro ⟨rfl, _⟩
        exact plain List.mem_cons_self
  rw [split, splitFrom, if_neg elsewhere]
  rfl

theorem split_part (filled : separator ≠ []) (plain : ∀ c ∈ part, c ∉ separator)
    (behind : split separator rest = [] :: later) :
    split separator (part ++ rest) = part :: later := by
  induction part with
  | nil => exact behind
  | cons c part ih =>
      obtain ⟨here, others⟩ := List.forall_mem_cons.mp plain
      rw [List.cons_append, split_plain filled here, ih others]
      rfl

theorem split_intercalate (filled : separator ≠ []) (written : parts ≠ [])
    (plain : ∀ part ∈ parts, ∀ c ∈ part, c ∉ separator) :
    split separator (separator.intercalate parts) = parts := by
  induction parts with
  | nil => contradiction
  | cons part later ih =>
      obtain ⟨here, others⟩ := List.forall_mem_cons.mp plain
      cases later with
      | nil =>
          have last := split_part filled here (show split separator [] = [[]] from rfl)
          rw [List.append_nil] at last
          rwa [List.intercalate_singleton]
      | cons next later =>
          rw [List.intercalate_cons_cons, List.append_assoc]
          refine split_part filled here ?_
          rw [split_separator filled, ih (List.cons_ne_nil _ _) others]

end Splitting

end Text

section Reading
variable {separator : List Char} {symbol : Symbol} {symbols : Postfix}

def Symbol.Lexical (symbol : Symbol) : Prop := ∀ lexeme, symbol = .number lexeme → Numeral lexeme

theorem Symbol.Lexical.read (lexical : symbol.Lexical) :
    Symbol.read? symbol.lexeme = some symbol := by
  cases symbol with
  | number lexeme =>
      have numeral := lexical lexeme rfl
      have unsigned : (Operator.all.find? fun op => lexeme = [op.sign]) = none := by
        refine List.find?_eq_none.mpr fun op _ => ?_
        simpa using numeral.ne_sign op
      rw [show (Symbol.number lexeme).lexeme = lexeme from rfl, Symbol.read?, unsigned]
      exact if_pos numeral
  | operator op => rcases op with (_ | _ | _ | _ | _) | _ <;> rfl

theorem Symbol.Lexical.filled (lexical : symbol.Lexical) : symbol.lexeme ≠ [] := by
  cases symbol with
  | number lexeme =>
      obtain ⟨digits, filled, _, rfl | rfl⟩ := lexical lexeme rfl
      · exact filled
      · exact List.cons_ne_nil _ _
  | operator op => exact List.cons_ne_nil _ _

theorem Symbol.Lexical.apart (lexical : symbol.Lexical) (foreign : Foreign separator) :
    ∀ c ∈ symbol.lexeme, c ∉ separator := by
  intro c member inside
  obtain ⟨plain, sign⟩ := foreign.plain c inside
  have decimal : c.isDigit ≠ true := by simp [plain]
  cases symbol with
  | number lexeme =>
      obtain ⟨digits, _, digit, rfl | rfl⟩ := lexical lexeme rfl
      · exact decimal (digit c member)
      · rcases List.mem_cons.mp member with rfl | later
        · exact sign (by decide)
        · exact decimal (digit c later)
  | operator op =>
      obtain rfl := List.mem_singleton.mp member
      rcases op with (_ | _ | _ | _ | _) | _ <;> exact sign (by decide)

theorem joined_ne_nil (lexical : ∀ symbol ∈ symbols, symbol.value.Lexical) (written : symbols ≠ []) :
    symbols.joined separator ≠ [] := by
  cases symbols with
  | nil => contradiction
  | cons first later =>
      have filled := (lexical first List.mem_cons_self).filled
      cases later with
      | nil => simpa [Postfix.joined] using filled
      | cons next later => simp [Postfix.joined, List.intercalate_cons_cons, filled]

theorem mapM_lexemes (lexical : ∀ symbol ∈ symbols, symbol.value.Lexical) :
    (symbols.map fun symbol => symbol.value.lexeme).mapM Symbol.read? =
      some (symbols.map Spanned.value) := by
  induction symbols with
  | nil => rfl
  | cons first later ih =>
      obtain ⟨here, others⟩ := List.forall_mem_cons.mp lexical
      rw [List.map_cons, List.mapM_cons, here.read, ih others]
      rfl

theorem read_joined (foreign : Foreign separator)
    (lexical : ∀ symbol ∈ symbols, symbol.value.Lexical) :
    Postfix.read? separator (symbols.joined separator) = some (symbols.map Spanned.value) := by
  cases symbols with
  | nil => rfl
  | cons first later =>
      have written : first :: later ≠ [] := List.cons_ne_nil _ _
      have plain : ∀ part ∈ (first :: later).map fun symbol => symbol.value.lexeme,
          ∀ c ∈ part, c ∉ separator := by
        intro part member
        obtain ⟨symbol, listed, rfl⟩ := List.mem_map.mp member
        exact (lexical symbol listed).apart foreign
      rw [Postfix.read?, if_neg (joined_ne_nil lexical written), Postfix.joined,
        Text.split_intercalate foreign.filled (by simp) plain, mapM_lexemes lexical]

end Reading

section Results
variable {mode : Mode} {text lexeme : List Char} {symbols : Postfix}

theorem number_of_resolve {before after : Option Kind} {kind : Kind}
    (reads : (Negation.resolve before after kind).symbol? = some (.number lexeme)) :
    kind = .number lexeme := by
  unfold Negation.resolve at reads
  split at reads
  · cases Option.some.inj reads
  · cases kind with
    | number written => exact congrArg Kind.number (Symbol.number.inj (Option.some.inj reads))
    | operator op => cases Option.some.inj reads
    | paren side => cases reads

-- The parser moves numbers and does not change them.
theorem lexical_of_toPostfix (converted : toPostfix mode text = .ok symbols) :
    ∀ symbol ∈ symbols, symbol.value.Lexical := by
  intro symbol member lexeme number
  obtain ⟨tokens, scanned, parsed⟩ := toPostfix_eq_ok.mp converted
  obtain ⟨token, listed, _, before, after, reads⟩ := symbol_resolved parsed member
  have lexical := (tokenizes_iff.mpr (scan_eq_ok scanned)).lexical token listed
  rw [number] at reads
  rwa [number_of_resolve reads] at lexical

end Results

/-- A result that is written with a foreign separator is read back as the symbols it was written from,
so two results that are written alike with it have the same symbols in the same order. -/
theorem separated_faithful {separator : List Char} (foreign : Foreign separator)
    {mode mode' : Mode} {text text' : List Char} {symbols symbols' : Postfix}
    (converted : toPostfix mode text = .ok symbols) (converted' : toPostfix mode' text' = .ok symbols') :
    Postfix.read? separator (symbols.joined separator) = some (symbols.map Spanned.value) ∧
      (symbols.joined separator = symbols'.joined separator →
        symbols.map Spanned.value = symbols'.map Spanned.value) := by
  have read := read_joined foreign (lexical_of_toPostfix converted)
  have read' := read_joined foreign (lexical_of_toPostfix converted')
  refine ⟨read, fun same => Option.some.inj ?_⟩
  rw [← read, ← read', same]

/-- A sign, a subtraction and a negation stay apart, also with a separator of two characters. -/
theorem separated_faithful_signs :
    let separator := [',', ' ']
    let text := ['-', '3', '-', '-', ' ', '4']
    let text' := ['-', '3', '$', '-', '-', '$', '4']
    ∃ symbols symbols', toPostfix .strict text = .ok symbols ∧
      toPostfix .tolerant text' = .ok symbols' ∧ symbols ≠ symbols' ∧
      symbols.map Spanned.value = symbols'.map Spanned.value ∧
      Postfix.read? separator ['-', '3', ',', ' ', '4', ',', ' ', 'n', ',', ' ', '-'] =
        some [.number ['-', '3'], .number ['4'], .operator .negate, .operator (.binary .sub)] := by
  intro separator text text'
  have foreign : Foreign separator :=
    ⟨by decide, List.forall_mem_cons.mpr ⟨by decide, List.forall_mem_singleton.mpr (by decide)⟩⟩
  have converted : toPostfix .strict text = .ok [⟨.number ['-', '3'], .sized 0 2⟩,
      ⟨.number ['4'], .sized 5 1⟩, ⟨.operator .negate, .sized 3 1⟩,
      ⟨.operator (.binary .sub), .sized 2 1⟩] := by decide +kernel
  have converted' : toPostfix .tolerant text' = .ok [⟨.number ['-', '3'], .sized 0 2⟩,
      ⟨.number ['4'], .sized 6 1⟩, ⟨.operator .negate, .sized 4 1⟩,
      ⟨.operator (.binary .sub), .sized 3 1⟩] := by decide +kernel
  obtain ⟨read, same⟩ := separated_faithful foreign converted converted'
  exact ⟨_, _, converted, converted', by decide, same rfl, read⟩

-- Without a separator numbers run together.
example : (toPostfix .tolerant ['1', ' ', '2']).map (Postfix.joined []) =
    (toPostfix .tolerant ['1', '2']).map (Postfix.joined []) := by decide +kernel

end Rpn
