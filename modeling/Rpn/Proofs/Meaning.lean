import Rpn.Conversion
import Rpn.Proofs.Grouping
import Rpn.Proofs.Values
/-!
The meaning of a text. A tree is read back from its postorder, so converting a sentence gives the
symbols of the tree that the sentence stands for, all of them at their places.
-/
namespace Rpn

namespace Postfix

theorem forest_postorder (tree : Expr) (trees : List Expr) (rest : Postfix) :
    forest trees (tree.postorder ++ rest) = forest (tree :: trees) rest := by
  induction tree generalizing trees rest with
  | number lexeme => rfl
  | negate sign operand ih =>
      rw [Expr.postorder, List.append_assoc, ih]
      rfl
  | binary op left right leftRead rightRead =>
      rw [Expr.postorder, List.append_assoc, List.append_assoc, leftRead, rightRead]
      rfl

theorem tree_postorder (source : Span) (tree : Expr) :
    Postfix.tree source tree.postorder = .ok tree := by
  have read := forest_postorder tree [] []
  rw [List.append_nil] at read
  rw [Postfix.tree, read]
  rfl

section Listing
variable {trees final : List Expr} {symbol : Spanned Symbol} {symbols : Postfix}

theorem place_lists (placed : place trees symbol = .ok final) :
    final.reverse.flatMap Expr.postorder = trees.reverse.flatMap Expr.postorder ++ [symbol] := by
  obtain ⟨value, span⟩ := symbol
  match value, trees with
  | .number lexeme, trees =>
      obtain rfl := Except.ok.inj placed
      simp [Expr.postorder, Spanned.map]
  | .operator .negate, operand :: trees =>
      obtain rfl := Except.ok.inj placed
      simp [Expr.postorder]
  | .operator (.binary op), right :: left :: trees =>
      obtain rfl := Except.ok.inj placed
      simp [Expr.postorder, Spanned.map]
  | .operator .negate, [] => contradiction
  | .operator (.binary op), [] => contradiction
  | .operator (.binary op), [_] => contradiction

-- The trees that are built list the symbols that they are built from.
theorem forest_lists (built : forest trees symbols = .ok final) :
    final.reverse.flatMap Expr.postorder = trees.reverse.flatMap Expr.postorder ++ symbols := by
  induction symbols generalizing trees with
  | nil =>
      obtain rfl := Except.ok.inj built
      rw [List.append_nil]
  | cons symbol rest ih =>
      rw [forest] at built
      cases placed : place trees symbol with
      | error error =>
          rw [placed] at built
          contradiction
      | ok next =>
          rw [placed] at built
          rw [ih built, place_lists placed, List.append_assoc]
          rfl

theorem validate_eq_ok_iff (source : Span) (symbols : Postfix) :
    symbols.validate source = .ok () ↔ ∃ tree : Expr, symbols = tree.postorder := by
  rw [validate_eq_tree]
  constructor
  · intro valid
    cases built : forest [] symbols with
    | error error => simp [tree, built, Except.map] at valid
    | ok final =>
        have listed := forest_lists built
        cases order : final.reverse with
        | nil => simp [tree, built, order, Except.map] at valid
        | cons first later =>
            cases later with
            | nil => exact ⟨first, by simpa [order] using listed.symm⟩
            | cons second later => simp [tree, built, order, Except.map] at valid
  · rintro ⟨tree, rfl⟩
    rw [tree_postorder]
    rfl

end Listing

end Postfix

/-- Whatever the mode, a sentence is converted to the postorder of its tree. -/
theorem convert_sentence (mode : Mode) (sentence : Sentence) :
    convert mode sentence.written = .ok sentence.tree.postorder := by
  have symbols : toPostfix mode sentence.written = .ok sentence.tree.postorder := by
    rw [toPostfix, sentence.scan_written]
    simp only [Shunting.parse_sentence]
    rfl
  have valid : Postfix.validate (Text.whole sentence.written) sentence.tree.postorder = .ok () := by
    rw [Postfix.validate_eq_tree, Postfix.tree_postorder]
    rfl
  rw [convert, symbols]
  simp only [valid]

end Rpn
