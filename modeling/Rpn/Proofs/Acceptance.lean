import Rpn.Proofs.Emission
import Rpn.Proofs.Formulas
import Rpn.Proofs.Outcomes
import Rpn.Proofs.Rereading
import Rpn.Proofs.Shape
/-!
Which texts convert to one expression. Every infix formula does. The symbols that go out are checked
behind the reordering, so some other texts do as well, but the numbers and operators of an expression
count out: a text that is no formula has both a factor right behind another one and an operator or a
group without its factor.
-/
namespace Rpn

/-- The kinds of the tokens with every minus that negates counted as a negation. -/
def markedKinds (tokens : List Token) : List Kind := kindsOf (Negation.mark tokens)

section Accepted
variable {mode : Mode} {text : List Char} {tokens : List Token} {symbols : Postfix}

theorem countP_symbols (wanted : Symbol → Bool) (tokens : List Token) :
    (tokens.filterMap Token.symbol?).countP (fun symbol => wanted symbol.value) =
      (kindsOf tokens).countP fun kind => kind.symbol?.any wanted := by
  induction tokens with
  | nil => rfl
  | cons token rest ih =>
      cases read : token.value.symbol? with
      | none =>
          have none : token.symbol? = none := by rw [Token.symbol?, read]; rfl
          simp [List.filterMap_cons_none none, ih, kindsOf, read]
      | some value =>
          have some : token.symbol? = some ⟨value, token.span⟩ := by rw [Token.symbol?, read]; rfl
          simp [List.filterMap_cons_some some, ih, kindsOf, List.countP_cons, read]

theorem numbers_of_postorder {tree : Expr} (converted : parse tokens = .ok tree.postorder) :
    (markedKinds tokens).countP Kind.isNumber = (markedKinds tokens).countP Kind.isBinary + 1 := by
  have perm := Shunting.parse_perm converted
  have balance := Postfix.postorder_balance tree
  rw [perm.countP_eq, perm.countP_eq, countP_symbols Symbol.isNumber,
    countP_symbols Symbol.isBinary] at balance
  have numbers : (fun kind : Kind => kind.symbol?.any Symbol.isNumber) = Kind.isNumber := by
    funext kind
    rcases kind with _ | (_ | _) | _ <;> rfl
  have binaries : (fun kind : Kind => kind.symbol?.any Symbol.isBinary) = Kind.isBinary := by
    funext kind
    rcases kind with _ | (_ | _) | _ <;> rfl
  rw [numbers, binaries] at balance
  exact balance

theorem leads_of_negates {before after : Option Kind}
    (negates : Negation.negates before after = true) :
    ∃ next, after = some next ∧ (next.isNumber = true ∨ next = .paren .opening) := by
  cases after with
  | none => cases before <;> contradiction
  | some next => cases before <;> simp_all [Negation.negates]

theorem ne_sub_of_leads {kind : Kind} (leads : kind.isNumber = true ∨ kind = .paren .opening) :
    kind ≠ .operator (.binary .sub) := by
  rintro rfl
  rcases leads with number | opening <;> contradiction

theorem prefixed_markFrom (before : Option Kind)
    (unmarked : ∀ token ∈ tokens, token.value ≠ .operator .negate) :
    Prefixed (kindsOf (Negation.markFrom before tokens)) := by
  induction tokens generalizing before with
  | nil =>
      intro front back whole
      simp [kindsOf, Negation.markFrom] at whole
  | cons token rest ih =>
      have later := ih (some token.value) fun other member =>
        unmarked other (List.mem_cons_of_mem _ member)
      intro front back whole
      rw [Negation.markFrom, kindsOf, List.map_cons] at whole
      cases front with
      | cons first front => exact later front back (List.cons.inj whole).2
      | nil =>
          obtain ⟨here, rfl⟩ := List.cons.inj whole
          rw [Spanned.map, Negation.resolve] at here
          split at here
          · rename_i marked
            obtain ⟨next, found, leads⟩ := leads_of_negates marked.2
            cases rest with
            | nil => contradiction
            | cons second rest =>
                obtain rfl := Option.some.inj found
                have kept := Negation.markFrom_plain (ne_sub_of_leads leads) (some token.value)
                  second.span rest
                refine ⟨second.value, kindsOf (Negation.markFrom (some second.value) rest), ?_, leads⟩
                rw [kept, List.map_cons, kindsOf]
          · exact absurd here (unmarked token List.mem_cons_self)

theorem readable_of_parse (converted : parse tokens = .ok symbols)
    (unmarked : ∀ token ∈ tokens, token.value ≠ .operator .negate) :
    Brackets.Balanced (sides (markedKinds tokens)) ∧ Prefixed (markedKinds tokens) := by
  have outlined : sides (markedKinds tokens) = outline (Negation.mark tokens) := by
    rw [sides, markedKinds, kindsOf, List.map_map]
    rfl
  refine ⟨?_, prefixed_markFrom none unmarked⟩
  rw [outlined, Negation.outline_mark]
  exact Shunting.balanced_of_parse converted

/-- Among the kinds of an accepted text there are as many places without a factor as there are factors
too many. -/
theorem missing_eq_surplus {tree : Expr} (converted : parse tokens = .ok tree.postorder) :
    missing false (markedKinds tokens) = surplus false (markedKinds tokens) := by
  have balance := numbers_balance false (markedKinds tokens)
  rw [numbers_of_postorder converted, Bool.toNat_false] at balance
  omega

theorem formula_iff {tree : Expr} (converted : parse tokens = .ok tree.postorder)
    (unmarked : ∀ token ∈ tokens, token.value ≠ .operator .negate) :
    (Formula (markedKinds tokens) ↔ ¬ Juxtaposed (markedKinds tokens)) ∧
      (Formula (markedKinds tokens) ↔
        ¬ Dangling (markedKinds tokens) ∧ ¬ EmptyGroup (markedKinds tokens)) := by
  obtain ⟨balanced, prefixed⟩ := readable_of_parse converted unmarked
  have even := missing_eq_surplus converted
  have filled : markedKinds tokens ≠ [] := by
    intro empty
    have counted := numbers_of_postorder converted
    simp [empty] at counted
  have reads : surplus false (markedKinds tokens) = 0 → Formula (markedKinds tokens) := fun none =>
    Readable.formula ⟨balanced, prefixed, none, even.trans none⟩
  constructor
  · constructor
    · exact fun formula => formula.fluent.not_juxtaposed
    · exact fun separate => reads (surplus_eq_zero separate)
  · constructor
    · exact fun formula => ⟨formula.fluent.not_dangling, formula.fluent.not_emptyGroup⟩
    · rintro ⟨placed, full⟩
      apply reads
      rw [← even]
      refine Decidable.byContradiction fun lacks => ?_
      rcases dangling_or_empty balanced prefixed filled lacks with dangling | empty
      · exact placed dangling
      · exact full empty

end Accepted

/-! Running over the tokens of a formula builds its tree. -/
section Formulas
open Shunting

def Phrase.Builds : Phrase → List Token → Prop
  | .factor, tokens => ∃ tree, Stands tokens tree
  | .formula, tokens => ∃ first rest tree links, tokens = first ++ rest ∧ Stands first tree ∧
      Spells rest links

variable {tokens inner : List Token}

theorem group_leaves (builds : Phrase.Builds .formula inner) (start finish : Span) :
    ∃ tree, ∀ stack, Leaves stack
      (⟨.paren .opening, start⟩ :: (inner ++ [⟨.paren .closing, finish⟩])) tree [] := by
  obtain ⟨first, rest, tree, links, rfl, stands, spells⟩ := builds
  refine ⟨links.tree tree, fun stack => ?_⟩
  rw [List.append_assoc]
  exact spells.group stands start finish stack

theorem kindsOf_group {inside : List Kind}
    (spelled : kindsOf tokens = .paren .opening :: (inside ++ [.paren .closing])) :
    ∃ start inner finish, tokens =
      ⟨.paren .opening, start⟩ :: (inner ++ [⟨.paren .closing, finish⟩]) ∧ kindsOf inner = inside := by
  obtain ⟨⟨_, start⟩, rest, rfl, rfl, within⟩ := List.map_eq_cons_iff.mp spelled
  obtain ⟨inner, last, rfl, same, ends⟩ := List.map_eq_append_iff.mp within
  obtain ⟨⟨_, finish⟩, rfl, rfl⟩ := List.map_eq_singleton_iff.mp ends
  exact ⟨start, inner, finish, rfl, same⟩

theorem Derives.builds {phrase : Phrase} {kinds : List Kind} (derives : Derives phrase kinds)
    (spelled : kindsOf tokens = kinds) : phrase.Builds tokens := by
  induction derives generalizing tokens with
  | number lexeme =>
      obtain ⟨⟨value, place⟩, rfl, rfl⟩ := List.map_eq_singleton_iff.mp spelled
      exact ⟨_, fun stack => ⟨[], leaves_number stack lexeme place, List.forall_mem_nil _⟩⟩
  | negated lexeme =>
      obtain ⟨⟨_, sign⟩, rest, rfl, rfl, behind⟩ := List.map_eq_cons_iff.mp spelled
      obtain ⟨⟨_, place⟩, rfl, rfl⟩ := List.map_eq_singleton_iff.mp behind
      exact ⟨_, stands_negate sign fun stack => leaves_number stack lexeme place⟩
  | group inside ih =>
      obtain ⟨start, inner, finish, rfl, within⟩ := kindsOf_group spelled
      obtain ⟨tree, leaves⟩ := group_leaves (ih within) start finish
      exact ⟨tree, fun stack => ⟨[], leaves stack, List.forall_mem_nil _⟩⟩
  | negatedGroup inside ih =>
      obtain ⟨⟨_, sign⟩, rest, rfl, rfl, behind⟩ := List.map_eq_cons_iff.mp spelled
      obtain ⟨start, inner, finish, rfl, within⟩ := kindsOf_group behind
      obtain ⟨tree, leaves⟩ := group_leaves (ih within) start finish
      exact ⟨_, stands_negate sign leaves⟩
  | single first ih =>
      obtain ⟨tree, stands⟩ := ih spelled
      exact ⟨tokens, [], tree, [], (List.append_nil tokens).symm, stands, .done⟩
  | chain first op rest ihFirst ihRest =>
      obtain ⟨front, others, rfl, spelledFront, later⟩ := List.map_eq_append_iff.mp spelled
      obtain ⟨⟨_, place⟩, back, rfl, rfl, spelledBack⟩ := List.map_eq_cons_iff.mp later
      obtain ⟨tree, stands⟩ := ihFirst spelledFront
      obtain ⟨next, last, operand, links, rfl, standsNext, spells⟩ := ihRest spelledBack
      exact ⟨front, _, tree, _, rfl, stands, .more standsNext spells⟩

theorem parse_formula (formula : Formula (markedKinds tokens)) :
    ∃ tree, parse tokens = .ok (Expr.postorder tree) := by
  obtain ⟨first, rest, tree, links, cut, stands, spells⟩ := Derives.builds formula rfl
  have empty : ∀ op ∈ (Stack.waiting {}), ∀ link ∈ links,
      op.value.rank ≤ (Operator.binary link.1.value).rank := nofun
  obtain ⟨pending, leaves, _⟩ := spells.leaves stands empty
  rw [← cut] at leaves
  exact ⟨_, leaves.parse⟩

end Formulas

section Texts
variable {mode : Mode} {text : List Char} {tokens : List Token}

theorem convert_eq_ok_iff {symbols : Postfix} : convert mode text = .ok symbols ↔
    toPostfix mode text = .ok symbols ∧ ∃ tree : Expr, symbols = tree.postorder := by
  rw [← Postfix.validate_eq_ok_iff (Text.whole text)]
  constructor
  · exact convert_eq_ok
  · rintro ⟨read, valid⟩
    rw [convert, read]
    simp only [valid]

theorem scan_unmarked (scanned : scan mode text = .ok tokens) :
    ∀ token ∈ tokens, token.value ≠ .operator .negate := by
  intro token member
  exact ((tokenizes_iff.mpr (scan_eq_ok scanned)).lexical token member).ne_negate

end Texts

/-- A text converts when the symbols that go out list one tree, as those of every formula do. A text
that converts is a formula as soon as no factor stands right behind another one, and also as soon as
every operator between two operands has them at its sides and no group is empty. -/
theorem convert_formulas (mode : Mode) (text : List Char) :
    (∀ symbols, convert mode text = .ok symbols ↔
      toPostfix mode text = .ok symbols ∧ ∃ tree : Expr, symbols = tree.postorder) ∧
    ∀ tokens, scan mode text = .ok tokens →
      (∀ symbols, convert mode text = .ok symbols →
        (Formula (markedKinds tokens) ↔ ¬ Juxtaposed (markedKinds tokens)) ∧
        (Formula (markedKinds tokens) ↔
          ¬ Dangling (markedKinds tokens) ∧ ¬ EmptyGroup (markedKinds tokens))) ∧
      (Formula (markedKinds tokens) → ∃ symbols, convert mode text = .ok symbols) := by
  refine ⟨fun symbols => convert_eq_ok_iff, fun tokens scanned => ⟨?_, ?_⟩⟩
  · intro symbols converted
    obtain ⟨read, tree, rfl⟩ := convert_eq_ok_iff.mp converted
    obtain ⟨others, same, parsed⟩ := toPostfix_eq_ok.mp read
    rw [scanned, Except.ok.injEq] at same
    subst same
    exact formula_iff parsed (scan_unmarked scanned)
  · intro formula
    obtain ⟨tree, parsed⟩ := parse_formula formula
    have read : toPostfix mode text = .ok tree.postorder :=
      toPostfix_eq_ok.mpr ⟨tokens, scanned, parsed⟩
    exact ⟨_, convert_eq_ok_iff.mpr ⟨read, tree, rfl⟩⟩

/-- In `-(7)*2` a negated group and a number are multiplied, and the text converts. -/
theorem convert_formulas_negated : ∃ tokens symbols,
    scan .strict "-(7)*2".toList = .ok tokens ∧ Formula (markedKinds tokens) ∧
      convert .strict "-(7)*2".toList = .ok symbols ∧ ¬ Juxtaposed (markedKinds tokens) := by
  have scanned : scan .strict "-(7)*2".toList = .ok [⟨.operator (.binary .sub), .sized 0 1⟩,
      ⟨.paren .opening, .sized 1 1⟩, ⟨.number ['7'], .sized 2 1⟩, ⟨.paren .closing, .sized 3 1⟩,
      ⟨.operator (.binary .mul), .sized 4 1⟩, ⟨.number ['2'], .sized 5 1⟩] := by decide +kernel
  obtain ⟨_, facts⟩ := convert_formulas .strict "-(7)*2".toList
  obtain ⟨separate, accepts⟩ := facts _ scanned
  have formula : Formula [.operator .negate, .paren .opening, .number ['7'], .paren .closing,
      .operator (.binary .mul), .number ['2']] :=
    .chain (.negatedGroup (.single (.number ['7']))) .mul (.single (.number ['2']))
  obtain ⟨symbols, converted⟩ := accepts formula
  exact ⟨_, symbols, scanned, formula, converted, (separate symbols converted).1.mp formula⟩

/-- The operator of `1 2 +` stands behind both of its operands, and the text converts. -/
theorem convert_misplaced_operator : ∃ tokens symbols,
    scan .tolerant "1 2 +".toList = .ok tokens ∧ convert .tolerant "1 2 +".toList = .ok symbols ∧
      ¬ Formula (markedKinds tokens) ∧ Juxtaposed (markedKinds tokens) ∧
      Dangling (markedKinds tokens) := by
  have scanned : scan .tolerant "1 2 +".toList = .ok [⟨.number ['1'], .sized 0 1⟩,
      ⟨.number ['2'], .sized 2 1⟩, ⟨.operator (.binary .add), .sized 4 1⟩] := by decide +kernel
  have converted : convert .tolerant "1 2 +".toList = .ok [⟨.number ['1'], .sized 0 1⟩,
      ⟨.number ['2'], .sized 2 1⟩, ⟨.operator (.binary .add), .sized 4 1⟩] := by decide +kernel
  have beside : Juxtaposed [.number ['1'], .number ['2'], .operator (.binary .add)] :=
    ⟨[], _, _, _, rfl, rfl, rfl⟩
  have dangling : Dangling [.number ['1'], .number ['2'], .operator (.binary .add)] :=
    ⟨[.number ['1'], .number ['2']], .add, [], rfl, fun ⟨_, _, found, _⟩ => nomatch found⟩
  exact ⟨_, _, scanned, converted, fun formula => formula.fluent.not_juxtaposed beside, beside,
    dangling⟩

end Rpn
