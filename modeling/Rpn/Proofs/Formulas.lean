import Rpn.Proofs.Brackets
/-!
Infix formulas. A formula is made of factors with a binary operator between any two, a factor being a
number or a formula in parentheses, perhaps with a negation in front of it. Reading the kinds from the
left tells at every place whether a factor has just ended. A kind that does not fit there is a factor
too many or a factor missing, and the numbers and binary operators tell how many more there are of the
one than of the other.
-/
namespace Rpn

inductive Phrase where
  | formula | factor
deriving DecidableEq

/-- The kinds are a phrase of this sort. -/
inductive Derives : Phrase → List Kind → Prop where
  | number (lexeme : List Char) : Derives .factor [.number lexeme]
  | negated (lexeme : List Char) : Derives .factor [.operator .negate, .number lexeme]
  | group {inner} (inside : Derives .formula inner) :
      Derives .factor (.paren .opening :: (inner ++ [.paren .closing]))
  | negatedGroup {inner} (inside : Derives .formula inner) :
      Derives .factor (.operator .negate :: .paren .opening :: (inner ++ [.paren .closing]))
  | single {front} (first : Derives .factor front) : Derives .formula front
  | chain {front back} (first : Derives .factor front) (op : Binary)
      (rest : Derives .formula back) :
      Derives .formula (front ++ .operator (.binary op) :: back)

abbrev Formula : List Kind → Prop := Derives .formula

namespace Kind

def startsFactor : Kind → Bool
  | number _ => true
  | operator .negate => true
  | operator (.binary _) => false
  | paren .opening => true
  | paren .closing => false

def endsFactor : Kind → Bool
  | number _ => true
  | operator _ => false
  | paren .opening => false
  | paren .closing => true

def isBinary : Kind → Bool
  | operator (.binary _) => true
  | _ => false

end Kind

/-- A factor starts right behind the end of another one. -/
def Juxtaposed (kinds : List Kind) : Prop :=
  ∃ front first second back, kinds = front ++ first :: second :: back ∧
    first.endsFactor = true ∧ second.startsFactor = true

/-- A binary operator has no factor directly in front of it or none directly behind it. -/
def Dangling (kinds : List Kind) : Prop :=
  ∃ front op back, kinds = front ++ .operator (.binary op) :: back ∧
    ¬ ((∃ before, front.getLast? = some before ∧ before.endsFactor = true) ∧
      ∃ after, back.head? = some after ∧ after.startsFactor = true)

def EmptyGroup (kinds : List Kind) : Prop :=
  ∃ front back, kinds = front ++ .paren .opening :: .paren .closing :: back

/-- Every negation stands in front of a number or a group. -/
def Prefixed (kinds : List Kind) : Prop :=
  ∀ front back, kinds = front ++ .operator .negate :: back →
    ∃ next rest, back = next :: rest ∧ (next.isNumber = true ∨ next = .paren .opening)

section Counting

/-- How many factors start right behind another one, `behind` telling whether one ends in front. -/
def surplus (behind : Bool) : List Kind → Nat
  | [] => 0
  | kind :: rest => (behind && kind.startsFactor).toNat + surplus kind.endsFactor rest

/-- At how many places a factor is missing, the end of the list among them. -/
def missing (behind : Bool) : List Kind → Nat
  | [] => (!behind).toNat
  | kind :: rest => (!behind && !kind.startsFactor).toNat + missing kind.endsFactor rest

theorem surplus_cons (behind : Bool) (kind : Kind) (rest : List Kind) :
    surplus behind (kind :: rest) =
      (behind && kind.startsFactor).toNat + surplus kind.endsFactor rest := rfl

theorem missing_cons (behind : Bool) (kind : Kind) (rest : List Kind) :
    missing behind (kind :: rest) =
      (!behind && !kind.startsFactor).toNat + missing kind.endsFactor rest := rfl

theorem countP_toNat (test : Kind → Bool) (kind : Kind) (rest : List Kind) :
    (kind :: rest).countP test = rest.countP test + (test kind).toNat := by
  rw [List.countP_cons]
  cases test kind <;> rfl

theorem kind_balance (behind : Bool) (kind : Kind) :
    kind.isNumber.toNat + (!behind && !kind.startsFactor).toNat + behind.toNat =
      kind.isBinary.toNat + (behind && kind.startsFactor).toNat + kind.endsFactor.toNat := by
  rcases kind with lexeme | (op | _) | (_ | _) <;> cases behind <;> rfl

theorem numbers_balance (behind : Bool) (kinds : List Kind) :
    kinds.countP Kind.isNumber + missing behind kinds + behind.toNat =
      kinds.countP Kind.isBinary + 1 + surplus behind kinds := by
  induction kinds generalizing behind with
  | nil => cases behind <;> rfl
  | cons kind rest ih =>
      have head := kind_balance behind kind
      have tail := ih kind.endsFactor
      rw [countP_toNat, countP_toNat, surplus_cons, missing_cons]
      omega

end Counting

section Reading
variable {behind : Bool} {kind : Kind} {kinds front back : List Kind}

/-- No factor is missing and none too many. -/
def Fluent (behind : Bool) (kinds : List Kind) : Prop :=
  surplus behind kinds = 0 ∧ missing behind kinds = 0

theorem fluent_nil : Fluent behind [] ↔ behind = true := by
  cases behind
  · exact ⟨fun fluent => absurd fluent.2 Nat.one_ne_zero, nofun⟩
  · exact ⟨fun _ => rfl, fun _ => ⟨rfl, rfl⟩⟩

theorem fluent_cons : Fluent behind (kind :: kinds) ↔
    kind.startsFactor = !behind ∧ Fluent kind.endsFactor kinds := by
  rw [Fluent, Fluent, surplus_cons, missing_cons, Nat.add_eq_zero_iff, Nat.add_eq_zero_iff,
    and_and_and_comm]
  apply and_congr_left
  intro _
  cases behind <;> cases kind.startsFactor <;> decide

theorem Fluent.append (first : Fluent behind front) (second : Fluent true back) :
    Fluent behind (front ++ back) := by
  induction front generalizing behind with
  | nil =>
      obtain rfl := fluent_nil.mp first
      exact second
  | cons kind front ih =>
      obtain ⟨starts, tail⟩ := fluent_cons.mp first
      exact fluent_cons.mpr ⟨starts, ih tail⟩

-- In front of a kind that starts no factor a factor has ended.
theorem Fluent.split (plain : kind.startsFactor = false)
    (fluent : Fluent behind (front ++ kind :: back)) :
    Fluent behind front ∧ Fluent true (kind :: back) := by
  induction front generalizing behind with
  | nil =>
      have starts := (fluent_cons.mp fluent).1
      rw [plain] at starts
      obtain rfl : behind = true := by simpa using starts.symm
      exact ⟨fluent_nil.mpr rfl, fluent⟩
  | cons first front ih =>
      obtain ⟨starts, tail⟩ := fluent_cons.mp fluent
      obtain ⟨before, after⟩ := ih tail
      exact ⟨fluent_cons.mpr ⟨starts, before⟩, after⟩

theorem Fluent.suffix (fluent : Fluent behind (front ++ back)) : ∃ state, Fluent state back := by
  induction front generalizing behind with
  | nil => exact ⟨behind, fluent⟩
  | cons kind front ih => exact ih (fluent_cons.mp fluent).2

theorem Fluent.first (fluent : Fluent false kinds) :
    ∃ after, kinds.head? = some after ∧ after.startsFactor = true := by
  cases kinds with
  | nil => exact absurd (fluent_nil.mp fluent) Bool.false_ne_true
  | cons kind rest => exact ⟨kind, rfl, (fluent_cons.mp fluent).1⟩

theorem Fluent.last (fluent : Fluent behind kinds) (filled : kinds ≠ []) :
    ∃ before, kinds.getLast? = some before ∧ before.endsFactor = true := by
  obtain ⟨front, last, whole⟩ := (List.eq_nil_or_concat kinds).resolve_left filled
  rw [List.concat_eq_append] at whole
  subst whole
  obtain ⟨state, single⟩ := fluent.suffix
  refine ⟨last, List.getLast?_concat, ?_⟩
  exact fluent_nil.mp (fluent_cons.mp single).2

theorem Derives.fluent {phrase : Phrase} (derives : Derives phrase kinds) : Fluent false kinds := by
  have closes : Fluent true [.paren .closing] := fluent_cons.mpr ⟨rfl, fluent_nil.mpr rfl⟩
  induction derives with
  | number lexeme => exact fluent_cons.mpr ⟨rfl, fluent_nil.mpr rfl⟩
  | negated lexeme => exact fluent_cons.mpr ⟨rfl, fluent_cons.mpr ⟨rfl, fluent_nil.mpr rfl⟩⟩
  | group inside ih => exact fluent_cons.mpr ⟨rfl, ih.append closes⟩
  | negatedGroup inside ih =>
      exact fluent_cons.mpr ⟨rfl, fluent_cons.mpr ⟨rfl, ih.append closes⟩⟩
  | single first ih => exact ih
  | chain first op rest ihFirst ihRest =>
      exact ihFirst.append (fluent_cons.mpr ⟨rfl, ihRest⟩)

theorem Fluent.not_juxtaposed (fluent : Fluent behind kinds) : ¬ Juxtaposed kinds := by
  rintro ⟨front, first, second, back, rfl, ends, starts⟩
  obtain ⟨state, pair⟩ := fluent.suffix
  have next := (fluent_cons.mp (fluent_cons.mp pair).2).1
  rw [ends, starts] at next
  contradiction

theorem Fluent.not_dangling (fluent : Fluent false kinds) : ¬ Dangling kinds := by
  rintro ⟨front, op, back, rfl, misplaced⟩
  obtain ⟨before, after⟩ := fluent.split rfl
  apply misplaced
  refine ⟨before.last ?_, Fluent.first (fluent_cons.mp after).2⟩
  rintro rfl
  exact Bool.false_ne_true (fluent_nil.mp before)

theorem Fluent.not_emptyGroup (fluent : Fluent behind kinds) : ¬ EmptyGroup kinds := by
  rintro ⟨front, back, rfl⟩
  obtain ⟨state, group⟩ := fluent.suffix
  exact Bool.false_ne_true (fluent_cons.mp (fluent_cons.mp group).2).1

theorem juxtaposed_of_surplus (many : surplus behind kinds ≠ 0) :
    Juxtaposed kinds ∨ behind = true ∧ ∃ kind rest, kinds = kind :: rest ∧
      kind.startsFactor = true := by
  induction kinds generalizing behind with
  | nil => exact absurd rfl many
  | cons kind rest ih =>
      by_cases here : behind = true ∧ kind.startsFactor = true
      · exact .inr ⟨here.1, kind, rest, rfl, here.2⟩
      · have none : (behind && kind.startsFactor) = false := by
          rw [← Bool.not_eq_true, Bool.and_eq_true]
          exact here
        rw [surplus, none, Bool.toNat_false, Nat.zero_add] at many
        rcases ih many with
          ⟨front, first, second, back, rfl, ends, starts⟩ | ⟨ends, next, later, rfl, starts⟩
        · exact .inl ⟨kind :: front, first, second, back, rfl, ends, starts⟩
        · exact .inl ⟨[], kind, next, later, rfl, ends, starts⟩

theorem surplus_eq_zero (separate : ¬ Juxtaposed kinds) : surplus false kinds = 0 := by
  refine Decidable.byContradiction fun many => ?_
  rcases juxtaposed_of_surplus many with beside | ⟨behind, _⟩
  · exact separate beside
  · contradiction

/-- Whether a factor ends at the end of the list. -/
def endsWith (behind : Bool) (kinds : List Kind) : Bool :=
  (kinds.getLast?.map Kind.endsFactor).getD behind

theorem endsWith_cons (behind : Bool) (kind : Kind) (rest : List Kind) :
    endsWith behind (kind :: rest) = endsWith kind.endsFactor rest := by
  rw [endsWith, endsWith, List.getLast?_cons]
  cases rest.getLast? <;> rfl

-- A factor is missing in front of a kind that starts none, or at the end.
theorem place_of_missing (lacks : missing behind kinds ≠ 0) :
    (∃ front kind back, kinds = front ++ kind :: back ∧ endsWith behind front = false ∧
      kind.startsFactor = false) ∨ endsWith behind kinds = false := by
  induction kinds generalizing behind with
  | nil =>
      right
      cases behind with
      | false => rfl
      | true => exact absurd rfl lacks
  | cons kind rest ih =>
      by_cases here : behind = false ∧ kind.startsFactor = false
      · exact .inl ⟨[], kind, rest, rfl, here.1, here.2⟩
      · have none : (!behind && !kind.startsFactor) = false := by
          rw [← Bool.not_eq_true, Bool.and_eq_true, Bool.not_eq_true', Bool.not_eq_true']
          exact here
        rw [missing, none, Bool.toNat_false, Nat.zero_add] at lacks
        rw [endsWith_cons]
        rcases ih lacks with ⟨front, other, back, rfl, unended, plain⟩ | unended
        · exact .inl ⟨kind :: front, other, back, rfl, by rw [endsWith_cons, unended], plain⟩
        · exact .inr unended

end Reading

section Groups
open Brackets
variable {kinds front back : List Kind}

def sides (kinds : List Kind) : List (Option Side) := kinds.map Kind.side?

theorem Prefixed.suffix (front : List Kind) (prefixed : Prefixed (front ++ back)) : Prefixed back := by
  intro before after whole
  exact prefixed (front ++ before) after (by rw [whole, List.append_assoc])

-- What a negation in front of a closing parenthesis stands in front of lies in the same group.
theorem Prefixed.inside (prefixed : Prefixed (front ++ .paren .closing :: back)) : Prefixed front := by
  rintro before after rfl
  obtain ⟨next, rest, same, leads⟩ :=
    prefixed before (after ++ .paren .closing :: back) (by simp)
  cases after with
  | nil =>
      obtain ⟨rfl, _⟩ := List.cons.inj same
      rcases leads with number | opening <;> contradiction
  | cons first after =>
      obtain ⟨rfl, _⟩ := List.cons.inj same
      exact ⟨first, after, rfl, leads⟩

theorem lacks_behind {front back : List Kind} {last : Kind} (prefixed : Prefixed (front ++ last :: back))
    (unended : last.endsFactor = false)
    (plain : ∀ next, back.head? = some next → next.startsFactor = false) :
    Dangling (front ++ last :: back) ∨ last = .paren .opening := by
  rcases last with lexeme | (op | _) | (_ | _)
  · contradiction
  · refine .inl ⟨front, op, back, rfl, ?_⟩
    rintro ⟨_, next, found, starts⟩
    rw [plain next found] at starts
    contradiction
  · obtain ⟨next, rest, rfl, leads⟩ := prefixed front back rfl
    have quiet := plain next rfl
    rcases leads with number | rfl
    · cases next <;> simp [Kind.isNumber, Kind.startsFactor] at number quiet
    · contradiction
  · exact .inr rfl
  · contradiction

theorem dangling_or_empty (balanced : Balanced (sides kinds)) (prefixed : Prefixed kinds)
    (filled : kinds ≠ []) (lacks : missing false kinds ≠ 0) : Dangling kinds ∨ EmptyGroup kinds := by
  rcases place_of_missing lacks with ⟨front, kind, back, rfl, unended, plain⟩ | unended
  · rcases List.eq_nil_or_concat front with rfl | ⟨front, last, rfl⟩
    · rcases kind with lexeme | (op | _) | (_ | _)
      · contradiction
      · exact .inl ⟨[], op, back, rfl, fun ⟨⟨_, found, _⟩, _⟩ => nomatch found⟩
      · contradiction
      · contradiction
      · exact absurd balanced (Balanced.nil.not_closing_after _)
    · rw [List.concat_eq_append] at prefixed unended ⊢
      rw [endsWith, List.getLast?_concat] at unended
      rw [List.append_assoc] at prefixed ⊢
      have quiet : ∀ next, (kind :: back).head? = some next → next.startsFactor = false := by
        rintro next found
        obtain rfl := Option.some.inj found
        exact plain
      rcases lacks_behind prefixed unended quiet with dangling | rfl
      · exact .inl dangling
      · rcases kind with lexeme | (op | _) | (_ | _)
        · contradiction
        · refine .inl ⟨front ++ [.paren .opening], op, back, by simp, ?_⟩
          rintro ⟨⟨before, found, ends⟩, _⟩
          rw [List.getLast?_concat] at found
          obtain rfl := Option.some.inj found
          contradiction
        · contradiction
        · contradiction
        · exact .inr ⟨front, back, rfl⟩
  · obtain ⟨front, last, whole⟩ := (List.eq_nil_or_concat kinds).resolve_left filled
    rw [List.concat_eq_append] at whole
    subst whole
    rw [endsWith, List.getLast?_concat] at unended
    rcases lacks_behind prefixed unended nofun with dangling | rfl
    · exact .inl dangling
    · rw [sides, List.map_append] at balanced
      exact absurd balanced (Balanced.nil.not_opening_before _)

/-- What is left to read of a formula, `behind` telling whether a factor ends in front. -/
structure Readable (behind : Bool) (kinds : List Kind) : Prop where
  balanced : Balanced (sides kinds)
  prefixed : Prefixed kinds
  fluent : Fluent behind kinds

theorem Readable.tail {behind : Bool} {kind : Kind} {rest : List Kind} (plain : kind.side? = none)
    (readable : Readable behind (kind :: rest)) : Readable kind.endsFactor rest where
  balanced := by
    have level := (balanced_iff _).mp readable.balanced
    rw [sides, List.map_cons, plain] at level
    exact (balanced_iff _).mpr level
  prefixed := Prefixed.suffix [kind] readable.prefixed
  fluent := (fluent_cons.mp readable.fluent).2

theorem Balanced.group_split {rest : List (Option Side)} (balanced : Balanced (some .opening :: rest)) :
    ∃ inner back, rest = inner ++ some .closing :: back ∧ Balanced inner ∧ Balanced back := by
  generalize whole : some Side.opening :: rest = all at balanced
  cases balanced with
  | nil => contradiction
  | other tail => exact nomatch (List.cons.inj whole).1
  | group inside tail => exact ⟨_, _, (List.cons.inj whole).2, inside, tail⟩

theorem Readable.group {rest : List Kind} (readable : Readable false (.paren .opening :: rest)) :
    ∃ inner back, rest = inner ++ .paren .closing :: back ∧ Readable false inner ∧
      Readable true back := by
  obtain ⟨within, after, same, inside, tail⟩ := Balanced.group_split readable.balanced
  obtain ⟨inner, others, rfl, rfl, closed⟩ := List.map_eq_append_iff.mp same
  obtain ⟨closing, back, rfl, side, rfl⟩ := List.map_eq_cons_iff.mp closed
  obtain rfl : closing = .paren .closing := by
    rcases closing with _ | _ | _ <;> simp_all [Kind.side?]
  have prefixed : Prefixed (inner ++ .paren .closing :: back) :=
    Prefixed.suffix [.paren .opening] readable.prefixed
  obtain ⟨first, later⟩ := Fluent.split rfl (fluent_cons.mp readable.fluent).2
  refine ⟨inner, back, rfl, ⟨inside, prefixed.inside, first⟩, tail, ?_, (fluent_cons.mp later).2⟩
  exact Prefixed.suffix (inner ++ [.paren .closing]) (by simpa using prefixed)

-- A factor with all that follows it is a formula, once what follows the next operator is one.
theorem Derives.followed {front rest : List Kind} (first : Derives .factor front)
    (readable : Readable true rest)
    (later : ∀ back, back.length < rest.length → Readable false back → Formula back) :
    Formula (front ++ rest) := by
  cases rest with
  | nil =>
      rw [List.append_nil]
      exact .single first
  | cons kind back =>
      have plain := (fluent_cons.mp readable.fluent).1
      rcases kind with lexeme | (op | _) | (_ | _)
      · contradiction
      · exact .chain first op (later back (Nat.lt_succ_self _) (readable.tail rfl))
      · contradiction
      · contradiction
      · exact absurd readable.balanced (Balanced.nil.not_closing_after _)

theorem Readable.formula (readable : Readable false kinds) : Formula kinds := by
  induction length : kinds.length using Nat.strongRecOn generalizing kinds with
  | ind count ih =>
      subst length
      have shorter : ∀ back, back.length < kinds.length → Readable false back → Formula back :=
        fun back less readable => ih _ less readable rfl
      cases kinds with
      | nil => exact absurd (fluent_nil.mp readable.fluent) Bool.false_ne_true
      | cons kind rest =>
          have starts := (fluent_cons.mp readable.fluent).1
          rcases kind with lexeme | (op | _) | (_ | _)
          · refine (Derives.number lexeme).followed (readable.tail rfl) fun back less => ?_
            exact shorter back (Nat.lt_succ_of_lt less)
          · contradiction
          · obtain ⟨next, later, rfl, leads⟩ := readable.prefixed [] rest rfl
            rcases next with lexeme | _ | (_ | _)
            · refine (Derives.negated lexeme).followed ((readable.tail rfl).tail rfl) fun back less => ?_
              exact shorter back (Nat.lt_succ_of_lt (Nat.lt_succ_of_lt less))
            · simp [Kind.isNumber] at leads
            · obtain ⟨inner, back, rfl, inside, behind⟩ := (readable.tail rfl).group
              simp only [List.length_cons, List.length_append] at shorter
              have first := Derives.negatedGroup (shorter inner (by omega) inside)
              have whole := first.followed behind fun after less => shorter after (by omega)
              simpa using whole
            · simp [Kind.isNumber] at leads
          · obtain ⟨inner, back, rfl, inside, behind⟩ := readable.group
            simp only [List.length_cons, List.length_append] at shorter
            have first := Derives.group (shorter inner (by omega) inside)
            have whole := first.followed behind fun after less => shorter after (by omega)
            simpa using whole
          · contradiction

end Groups

end Rpn
