import Rpn.Expr
import Rpn.Proofs.Hulls
/-!
Values and the trees behind them. After any number of symbols the check of a postfix sequence keeps
the spans of the trees that the symbols list, the earliest first, so it finds what reading the trees
back finds.
-/
namespace Rpn.Postfix

/-- The spans of the trees, which wait with the latest first. -/
def spans (trees : List Expr) : Array Span := (trees.reverse.map Expr.span).toArray

section Values
variable (trees : List Expr) (symbol : Spanned Symbol)

theorem spans_size : (spans trees).size = trees.length := by simp [spans]

theorem spans_cons (tree : Expr) : spans (tree :: trees) = (spans trees).push tree.span := by
  simp [spans]

theorem apply_missing {values : Array Span} (short : values.size < symbol.value.arity) :
    apply values symbol = .error ⟨.missingOperand, symbol.span⟩ := if_pos short

-- The values in front of the operands stay, and the join runs from the symbol over the operands.
theorem apply_append (values operands : Array Span) (all : operands.size = symbol.value.arity) :
    apply (values ++ operands) symbol =
      .ok (values.push (operands.foldl Span.join symbol.span)) := by
  have size : (values ++ operands).size = values.size + symbol.value.arity := by
    rw [Array.size_append, all]
  have kept : (values ++ operands).size - symbol.value.arity = values.size := by omega
  have enough : ¬ (values ++ operands).size < symbol.value.arity := by omega
  rw [apply, if_neg enough, kept]
  simp

theorem apply_spans : apply (spans trees) symbol = (place trees symbol).map spans := by
  obtain ⟨value, here⟩ := symbol
  match value, trees with
  | .number lexeme, trees =>
      have applied := apply_append ⟨.number lexeme, here⟩ (spans trees) #[] rfl
      rw [Array.append_empty] at applied
      rw [applied]
      exact congrArg Except.ok (spans_cons trees (.number ⟨lexeme, here⟩)).symm
  | .operator .negate, operand :: trees =>
      have applied := apply_append ⟨.operator .negate, here⟩ (spans trees) #[operand.span] rfl
      rw [spans_cons, ← Array.append_singleton, applied]
      exact congrArg Except.ok (spans_cons trees (.negate here operand)).symm
  | .operator (.binary op), right :: left :: trees =>
      have applied := apply_append ⟨.operator (.binary op), here⟩ (spans trees)
        #[left.span, right.span] rfl
      have waiting : spans (right :: left :: trees) = spans trees ++ #[left.span, right.span] := by
        rw [spans_cons, spans_cons]
        rfl
      have joined : #[left.span, right.span].foldl Span.join here =
          (Expr.binary ⟨op, here⟩ left right).span := Span.join_assoc _ _ _
      rw [waiting, applied, joined]
      exact congrArg Except.ok (spans_cons trees (.binary ⟨op, here⟩ left right)).symm
  | .operator .negate, [] => exact apply_missing _ (Nat.zero_lt_one)
  | .operator (.binary op), [] => exact apply_missing _ (Nat.zero_lt_two)
  | .operator (.binary op), [_] => exact apply_missing _ (Nat.one_lt_two)

theorem evaluate_spans (symbols : Postfix) :
    evaluate (spans trees) symbols = (forest trees symbols).map spans := by
  induction symbols generalizing trees with
  | nil => rfl
  | cons symbol rest ih =>
      rw [evaluate, forest, apply_spans]
      cases place trees symbol with
      | error error => rfl
      | ok next => exact ih next

end Values

-- The surplus is joined from its first value on, that value included.
theorem foldl_join_spans (second : Expr) (later : List Expr) :
    ((second :: later).map Expr.span).foldl Span.join second.span =
      later.foldl (fun span tree => span.join tree.span) second.span := by
  rw [List.map_cons, List.foldl_cons, Span.join_self, List.foldl_map]

/-- The check finds an expression exactly where the trees read back are one, and the same error where
they are not. -/
theorem validate_eq_tree (source : Span) (symbols : Postfix) :
    symbols.validate source = (tree source symbols).map fun _ => () := by
  have read : evaluate #[] symbols = (forest [] symbols).map spans := evaluate_spans [] symbols
  rw [validate, tree, read]
  cases forest [] symbols with
  | error error => rfl
  | ok trees =>
      have values : (spans trees).toList = trees.reverse.map Expr.span := rfl
      simp only [Except.map, values, spans_size]
      rcases trees.reverse with _ | ⟨first, _ | ⟨second, later⟩⟩
      · rfl
      · rfl
      · simp only [List.map_cons]
        rw [← List.map_cons, foldl_join_spans]

end Rpn.Postfix
