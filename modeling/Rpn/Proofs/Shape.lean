import Rpn.Proofs.Hulls
import Rpn.Proofs.Meaning
/-!
What the check of a postfix sequence answers. A sequence lists at most one row of trees. It lists one
exactly when no symbol comes before its operands, and then the length of the row decides: one tree is
an expression, no tree is an empty one, and of several all but the first are surplus.
-/
namespace Rpn

def Symbol.isNumber : Symbol → Bool
  | .number _ => true
  | .operator _ => false

def Symbol.isBinary : Symbol → Bool
  | .operator (.binary _) => true
  | .operator .negate => false
  | .number _ => false

namespace Postfix

/-- The symbols of the trees, one tree behind the other. -/
def listing (trees : List Expr) : Postfix := trees.flatMap Expr.postorder

/-- The symbols in front of position `i` list trees, and the symbol there takes more values than there
are trees. -/
def Starves (symbols : Postfix) (i : Nat) (symbol : Spanned Symbol) : Prop :=
  symbols[i]? = some symbol ∧
    ∃ trees, symbols.take i = listing trees ∧ trees.length < symbol.value.arity

section Reading
variable {trees final : List Expr} {symbol : Spanned Symbol} {symbols : Postfix}
  {error : Spanned ShapeError}

theorem place_eq_error_iff : place trees symbol = .error error ↔
    trees.length < symbol.value.arity ∧ error = ⟨.missingOperand, symbol.span⟩ := by
  obtain ⟨value, span⟩ := symbol
  rcases value with lexeme | (op | _)
  · simp [place, Symbol.arity]
  · rcases trees with _ | ⟨right, _ | ⟨left, trees⟩⟩
    · simp [place, Symbol.arity, Operator.arity, eq_comm]
    · simp [place, Symbol.arity, Operator.arity, eq_comm]
    · have enough : ¬ (right :: left :: trees).length < 2 := by simp
      exact iff_of_false nofun fun blamed => enough blamed.1
  · rcases trees with _ | ⟨operand, trees⟩
    · simp [place, Symbol.arity, Operator.arity, eq_comm]
    · simp [place, Symbol.arity, Operator.arity]

theorem forest_append (trees : List Expr) (front back : Postfix) :
    forest trees (front ++ back) = (forest trees front).bind fun final => forest final back := by
  induction front generalizing trees with
  | nil => rfl
  | cons symbol front ih =>
      rw [List.cons_append, forest, forest]
      cases place trees symbol with
      | error error => rfl
      | ok next => exact ih next

theorem forest_listing (trees row : List Expr) :
    forest trees (listing row) = .ok (row.reverse ++ trees) := by
  induction row generalizing trees with
  | nil => rfl
  | cons tree row ih =>
      have first : listing (tree :: row) = tree.postorder ++ listing row := rfl
      rw [first, forest_postorder, ih]
      simp

theorem forest_eq_ok_iff : forest [] symbols = .ok final ↔ symbols = listing final.reverse := by
  constructor
  · intro built
    exact (forest_lists built).symm
  · rintro rfl
    simpa using forest_listing [] final.reverse

/-- No sequence lists two rows of trees. -/
theorem listing_injective {row other : List Expr} (same : listing row = listing other) :
    row = other := by
  have first := forest_listing [] row
  rw [same, forest_listing [] other, Except.ok.injEq, List.append_nil, List.append_nil] at first
  exact (List.reverse_inj.mp first).symm

-- Reading stops at the first symbol that finds too few trees.
theorem forest_blames (failed : forest trees symbols = .error error) :
    ∃ front symbol back final, symbols = front ++ symbol :: back ∧ forest trees front = .ok final ∧
      final.length < symbol.value.arity ∧ error = ⟨.missingOperand, symbol.span⟩ := by
  induction symbols generalizing trees with
  | nil => contradiction
  | cons symbol rest ih =>
      rw [forest] at failed
      cases placed : place trees symbol with
      | error blamed =>
          rw [placed, Except.error.injEq] at failed
          subst failed
          obtain ⟨short, blame⟩ := place_eq_error_iff.mp placed
          exact ⟨[], symbol, rest, trees, rfl, rfl, short, blame⟩
      | ok next =>
          rw [placed] at failed
          obtain ⟨front, blamed, back, final, rfl, built, short, blame⟩ := ih failed
          refine ⟨symbol :: front, blamed, back, final, rfl, ?_, short, blame⟩
          rw [forest, placed]
          exact built

-- Whatever stands behind a symbol that finds too few trees is not read.
theorem Starves.blamed {i count : Nat} (starves : Starves symbols i symbol) (beyond : i < count) :
    forest [] (symbols.take count) = .error ⟨.missingOperand, symbol.span⟩ := by
  obtain ⟨found, row, listed, short⟩ := starves
  have cut : symbols.take count = listing row ++ symbol :: (symbols.take count).drop (i + 1) := by
    have kept : (symbols.take count)[i]? = some symbol := by
      rw [List.getElem?_take_of_lt beyond, found]
    obtain ⟨bound, here⟩ := List.getElem?_eq_some_iff.mp kept
    rw [← here, ← List.drop_eq_getElem_cons bound, ← listed, ← Nat.min_eq_left (Nat.le_of_lt beyond),
      ← List.take_take, Nat.min_eq_left (Nat.le_of_lt beyond), List.take_append_drop]
  have short : row.reverse.length < symbol.value.arity := by rwa [List.length_reverse]
  have blames := place_eq_error_iff.mpr ⟨short, rfl⟩
  rw [cut, forest_append, forest_listing, List.append_nil]
  change forest row.reverse (symbol :: _) = _
  rw [forest, blames]

theorem Starves.fails {i : Nat} (starves : Starves symbols i symbol) :
    forest [] symbols = .error ⟨.missingOperand, symbol.span⟩ := by
  have bound := (List.getElem?_eq_some_iff.mp starves.1).1
  have blamed := starves.blamed bound
  rwa [List.take_length] at blamed

theorem Starves.first {i j : Nat} {other : Spanned Symbol} (starves : Starves symbols i symbol)
    (earlier : j < i) : ¬ Starves symbols j other := by
  intro before
  obtain ⟨_, row, listed, _⟩ := starves
  have built := forest_listing [] row
  rw [← listed, before.blamed earlier] at built
  contradiction

/-- A sequence lists trees, or one of its symbols finds too few of them. -/
theorem listing_or_starves (symbols : Postfix) :
    (∃ row, symbols = listing row) ∨ ∃ i symbol, Starves symbols i symbol := by
  cases read : forest [] symbols with
  | ok final => exact .inl ⟨final.reverse, forest_eq_ok_iff.mp read⟩
  | error error =>
      obtain ⟨front, symbol, back, final, rfl, built, short, _⟩ := forest_blames read
      refine .inr ⟨front.length, symbol, by simp, final.reverse, ?_, by simpa using short⟩
      rw [List.take_left]
      exact forest_eq_ok_iff.mp built

end Reading

section Answers
variable (source : Span) {symbols : Postfix} {symbol : Spanned Symbol}

theorem validate_listing (row : List Expr) : (listing row).validate source =
    match row with
    | [] => .error ⟨.empty, source⟩
    | [_] => .ok ()
    | _ :: second :: later => .error ⟨.extraOperands row.length,
        later.foldl (fun span tree => span.join tree.span) second.span⟩ := by
  have read := forest_listing [] row
  rw [List.append_nil] at read
  rw [validate_eq_tree, tree, read]
  simp only [List.reverse_reverse, List.length_reverse]
  rcases row with _ | ⟨first, _ | ⟨second, later⟩⟩ <;> rfl

theorem Starves.validate {i : Nat} (starves : Starves symbols i symbol) :
    symbols.validate source = .error ⟨.missingOperand, symbol.span⟩ := by
  rw [validate_eq_tree, tree, starves.fails]
  rfl

end Answers

/-! The span of a tree runs over all its symbols, and so does the join of the spans of a row. -/
section Spans
variable {symbols : Postfix} {span : Span}

theorem hull_postorder (tree : Expr) : Span.Hull (tree.postorder.map Spanned.span) tree.span := by
  induction tree with
  | number lexeme => exact Span.hull_single _
  | negate sign operand ih =>
      rw [Expr.span, Span.join_comm, Expr.postorder, List.map_append]
      exact ih.append (Span.hull_single sign)
  | binary op left right leftHull rightHull =>
      rw [Expr.span, Span.join_comm, Expr.postorder, List.map_append, List.map_append]
      exact (leftHull.append rightHull).append (Span.hull_single op.span)

theorem hull_row (hull : Span.Hull (symbols.map Spanned.span) span) (later : List Expr) :
    Span.Hull ((symbols ++ listing later).map Spanned.span)
      (later.foldl (fun span tree => span.join tree.span) span) := by
  induction later generalizing symbols span with
  | nil => simpa [listing] using hull
  | cons tree later ih =>
      have grown := hull.append (hull_postorder tree)
      rw [← List.map_append] at grown
      have whole := ih grown
      rwa [List.append_assoc] at whole

end Spans

section Counting

-- A tree has one number more than it has operators between two operands.
theorem postorder_balance (tree : Expr) :
    tree.postorder.countP (fun symbol => symbol.value.isNumber) =
      tree.postorder.countP (fun symbol => symbol.value.isBinary) + 1 := by
  induction tree with
  | number lexeme => rfl
  | negate sign operand ih =>
      rw [Expr.postorder, List.countP_append, List.countP_append, ih]
      rfl
  | binary op left right leftCount rightCount =>
      rw [Expr.postorder, List.countP_append, List.countP_append, List.countP_append,
        List.countP_append, leftCount, rightCount]
      simp [Spanned.map, Symbol.isNumber, Symbol.isBinary]
      omega

theorem listing_balance (row : List Expr) :
    (listing row).countP (fun symbol => symbol.value.isNumber) =
      (listing row).countP (fun symbol => symbol.value.isBinary) + row.length := by
  induction row with
  | nil => rfl
  | cons tree row ih =>
      have first : listing (tree :: row) = tree.postorder ++ listing row := rfl
      rw [first, List.countP_append, List.countP_append, postorder_balance, ih, List.length_cons]
      omega

end Counting

section Verdicts
variable {source place : Span} {symbols : Postfix} {error : Spanned ShapeError} {count : Nat}

theorem failed_cases (failed : symbols.validate source = .error error) :
    (symbols = [] ∧ error = ⟨.empty, source⟩) ∨
    (∃ first second later, symbols = listing (first :: second :: later) ∧
      error = ⟨.extraOperands (later.length + 2),
        later.foldl (fun span tree => span.join tree.span) second.span⟩) ∨
    ∃ i symbol, Starves symbols i symbol ∧ error = ⟨.missingOperand, symbol.span⟩ := by
  rcases listing_or_starves symbols with ⟨row, rfl⟩ | ⟨i, symbol, starves⟩
  · rw [validate_listing] at failed
    rcases row with _ | ⟨first, _ | ⟨second, later⟩⟩
    · exact .inl ⟨rfl, (Except.error.inj failed).symm⟩
    · contradiction
    · exact .inr (.inl ⟨first, second, later, rfl, (Except.error.inj failed).symm⟩)
  · rw [starves.validate] at failed
    exact .inr (.inr ⟨i, symbol, starves, (Except.error.inj failed).symm⟩)

theorem validate_surplus_iff :
    (∃ place, symbols.validate source = .error ⟨.extraOperands count, place⟩) ↔
      2 ≤ count ∧ ∃ row, row.length = count ∧ symbols = listing row := by
  constructor
  · rintro ⟨place, failed⟩
    rcases failed_cases failed with ⟨_, same⟩ | ⟨first, second, later, listed, same⟩ | ⟨_, _, _, same⟩
    · simp at same
    · simp only [Spanned.mk.injEq, ShapeError.extraOperands.injEq] at same
      rw [same.1]
      exact ⟨Nat.le_add_left 2 _, _, rfl, listed⟩
    · simp at same
  · rintro ⟨several, row, rfl, rfl⟩
    rcases row with _ | ⟨first, _ | ⟨second, later⟩⟩
    · contradiction
    · contradiction
    · exact ⟨_, validate_listing source (first :: second :: later)⟩

-- The first tree is no surplus, and the error covers all the others.
theorem hull_of_surplus {first : Expr} {later : List Expr}
    (failed : (listing (first :: later)).validate source = .error ⟨.extraOperands count, place⟩) :
    Span.Hull ((listing later).map Spanned.span) place := by
  rw [validate_listing] at failed
  cases later with
  | nil => contradiction
  | cons second later =>
      simp only [Except.error.injEq, Spanned.mk.injEq] at failed
      rw [← failed.2]
      exact hull_row (hull_postorder second) later

theorem validate_empty_iff :
    symbols.validate source = .error ⟨.empty, place⟩ ↔ symbols = [] ∧ place = source := by
  constructor
  · intro failed
    rcases failed_cases failed with ⟨empty, same⟩ | ⟨_, _, _, _, same⟩ | ⟨_, _, _, same⟩
    · simp only [Spanned.mk.injEq, true_and] at same
      exact ⟨empty, same⟩
    · simp at same
    · simp at same
  · rintro ⟨rfl, rfl⟩
    rfl

theorem validate_missing_iff : symbols.validate source = .error ⟨.missingOperand, place⟩ ↔
    ∃ i symbol, Starves symbols i symbol ∧ symbol.span = place := by
  constructor
  · intro failed
    rcases failed_cases failed with ⟨_, same⟩ | ⟨_, _, _, _, same⟩ | ⟨i, symbol, starves, same⟩
    · simp at same
    · simp at same
    · simp only [Spanned.mk.injEq, true_and] at same
      exact ⟨i, symbol, starves, same.symm⟩
  · rintro ⟨i, symbol, starves, rfl⟩
    exact starves.validate source

theorem Starves.not_listing {i : Nat} {symbol : Spanned Symbol} (starves : Starves symbols i symbol)
    (row : List Expr) : symbols ≠ listing row := by
  rintro rfl
  have read := forest_listing [] row
  rw [starves.fails] at read
  contradiction

end Verdicts

/-- The answer to a sequence of symbols, whatever their places. A sequence lists at most one row of
trees. It is accepted when it lists one tree; when it lists more, the error tells how many, which is
how many more numbers than binary operators there are, and covers the symbols of all trees but the
first; when it is empty, the error stands at `source`. A sequence that lists no trees is blamed on the
first symbol that takes more values than there are trees in front of it. -/
theorem validate_exact (source : Span) (symbols : Postfix) :
    (∀ row other, symbols = listing row → symbols = listing other → row = other) ∧
    (symbols.validate source = .ok () ↔ ∃ tree : Expr, symbols = tree.postorder) ∧
    (∀ count, (∃ place, symbols.validate source = .error ⟨.extraOperands count, place⟩) ↔
      2 ≤ count ∧ ∃ row, row.length = count ∧ symbols = listing row) ∧
    (∀ count place, symbols.validate source = .error ⟨.extraOperands count, place⟩ →
      symbols.countP (fun symbol => symbol.value.isNumber) =
        symbols.countP (fun symbol => symbol.value.isBinary) + count ∧
      ∀ first later, symbols = listing (first :: later) →
        Span.Hull ((listing later).map Spanned.span) place) ∧
    (∀ place, symbols.validate source = .error ⟨.empty, place⟩ ↔ symbols = [] ∧ place = source) ∧
    ((∃ place, symbols.validate source = .error ⟨.missingOperand, place⟩) ↔
      ∀ row, symbols ≠ listing row) ∧
    ∀ place, symbols.validate source = .error ⟨.missingOperand, place⟩ ↔
      ∃ i symbol, Starves symbols i symbol ∧ (∀ j other, j < i → ¬ Starves symbols j other) ∧
        symbol.span = place := by
  refine ⟨fun row other first second => listing_injective (first.symm.trans second),
    validate_eq_ok_iff source symbols, fun count => validate_surplus_iff, ?_,
    fun place => validate_empty_iff, ?_, ?_⟩
  · intro count place failed
    constructor
    · obtain ⟨_, row, rfl, rfl⟩ := validate_surplus_iff.mp ⟨place, failed⟩
      exact listing_balance row
    · rintro first later rfl
      exact hull_of_surplus failed
  · constructor
    · rintro ⟨place, failed⟩
      obtain ⟨i, symbol, starves, _⟩ := validate_missing_iff.mp failed
      exact starves.not_listing
    · intro none
      rcases listing_or_starves symbols with ⟨row, listed⟩ | ⟨i, symbol, starves⟩
      · exact absurd listed (none row)
      · exact ⟨_, starves.validate source⟩
  · intro place
    rw [validate_missing_iff]
    constructor
    · rintro ⟨i, symbol, starves, span⟩
      exact ⟨i, symbol, starves, fun j other earlier => starves.first earlier, span⟩
    · rintro ⟨i, symbol, starves, _, span⟩
      exact ⟨i, symbol, starves, span⟩

end Postfix

end Rpn
