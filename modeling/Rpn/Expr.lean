import Rpn.Validation
/-!
Expression trees. A tree is listed in postorder, every operator right behind its operands, and a
postfix sequence is read back from the left: the trees built so far wait, the latest first, a number
becomes a tree of its own, and an operator takes as many of the latest trees as it has operands. The
sequence is one expression when one tree is left.
-/
namespace Rpn

inductive Expr where
  | number (lexeme : Spanned (List Char))
  | negate (sign : Span) (operand : Expr)
  | binary (op : Spanned Binary) (left right : Expr)
deriving DecidableEq, Repr

namespace Expr

def postorder : Expr → Postfix
  | .number lexeme => [lexeme.map .number]
  | .negate sign operand => operand.postorder ++ [⟨.operator .negate, sign⟩]
  | .binary op left right =>
    left.postorder ++ right.postorder ++ [op.map fun op => .operator (.binary op)]

/-- The least span that covers every symbol of the tree. -/
def span : Expr → Span
  | .number lexeme => lexeme.span
  | .negate sign operand => sign.join operand.span
  | .binary op left right => op.span.join (left.span.join right.span)

end Expr

namespace Postfix

def place (trees : List Expr) (symbol : Spanned Symbol) :
    Except (Spanned ShapeError) (List Expr) :=
  match symbol.value, trees with
  | .number lexeme, trees => .ok (.number ⟨lexeme, symbol.span⟩ :: trees)
  | .operator .negate, operand :: trees => .ok (.negate symbol.span operand :: trees)
  | .operator (.binary op), right :: left :: trees =>
    .ok (.binary ⟨op, symbol.span⟩ left right :: trees)
  | .operator _, _ => .error ⟨.missingOperand, symbol.span⟩

def forest : List Expr → Postfix → Except (Spanned ShapeError) (List Expr)
  | trees, [] => .ok trees
  | trees, symbol :: rest =>
    match place trees symbol with
    | .ok trees => forest trees rest
    | .error error => .error error

/-- The tree that a sequence lists. Surplus trees are reported where they stand, all but the first;
an empty sequence has no place of its own and is reported at `source`. -/
def tree (source : Span) (symbols : Postfix) : Except (Spanned ShapeError) Expr :=
  match forest [] symbols with
  | .error error => .error error
  | .ok trees =>
    match trees.reverse with
    | [] => .error ⟨.empty, source⟩
    | [tree] => .ok tree
    | _ :: second :: later =>
      .error ⟨.extraOperands trees.length,
        later.foldl (fun span tree => span.join tree.span) second.span⟩

end Postfix

end Rpn
