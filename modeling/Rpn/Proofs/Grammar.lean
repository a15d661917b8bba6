import Rpn.Expr
import Rpn.Token
/-!
Sentences of infix notation and what they mean. An operand is a number, perhaps with a minus in front
of it, or a chain in parentheses; a chain is made of operands with an operator between any two, a blank
on either side of it. A chain is divided at the first of its operators of lowest rank, and so is what
stands on both sides of it.
-/
namespace Rpn

/-- Operators of a chain, each with the operand behind it. -/
abbrev Links := List (Spanned Binary × Expr)

namespace Links

/-- What stands in front of the first operator of lowest rank, its link, and what stands behind it. -/
def cut : Links → Option (Links × (Spanned Binary × Expr) × Links)
  | [] => none
  | link :: rest =>
    match cut rest with
    | none => some ([], link, [])
    | some (before, lowest, after) =>
      if link.1.value.rank ≤ lowest.1.value.rank then some ([], link, rest)
      else some (link :: before, lowest, after)

variable {links before after : Links} {link : Spanned Binary × Expr}

theorem cut_eq_none (uncut : cut links = none) : links = [] := by
  cases links with
  | nil => rfl
  | cons link rest =>
      unfold cut at uncut
      split at uncut
      · contradiction
      · split at uncut <;> contradiction

theorem cut_eq_some (divided : cut links = some (before, link, after)) :
    links = before ++ link :: after ∧
      (∀ other ∈ before, link.1.value.rank < other.1.value.rank) ∧
      ∀ other ∈ after, link.1.value.rank ≤ other.1.value.rank := by
  induction links generalizing before link after with
  | nil => contradiction
  | cons first rest ih =>
      unfold cut at divided
      split at divided
      · rename_i uncut
        simp only [Option.some.injEq, Prod.mk.injEq] at divided
        obtain ⟨rfl, rfl, rfl⟩ := divided
        simp [cut_eq_none uncut]
      · rename_i front lowest back found
        obtain ⟨whole, higher, least⟩ := ih found
        split at divided
        · rename_i low
          simp only [Option.some.injEq, Prod.mk.injEq] at divided
          obtain ⟨rfl, rfl, rfl⟩ := divided
          refine ⟨rfl, by simp, ?_⟩
          intro other member
          rw [whole, List.mem_append, List.mem_cons] at member
          rcases member with inFront | rfl | behind
          · exact Nat.le_trans low (Nat.le_of_lt (higher other inFront))
          · exact low
          · exact Nat.le_trans low (least other behind)
        · rename_i high
          simp only [Option.some.injEq, Prod.mk.injEq] at divided
          obtain ⟨rfl, rfl, rfl⟩ := divided
          refine ⟨by rw [whole]; rfl, ?_, least⟩
          intro other member
          rcases List.mem_cons.mp member with rfl | member
          · exact Nat.lt_of_not_le high
          · exact higher other member

theorem cut_append (higher : ∀ other ∈ before, link.1.value.rank < other.1.value.rank)
    (least : ∀ other ∈ after, link.1.value.rank ≤ other.1.value.rank) :
    cut (before ++ link :: after) = some (before, link, after) := by
  induction before with
  | nil =>
      cases divided : cut after with
      | none => simp [cut, cut_eq_none divided]
      | some parts =>
          obtain ⟨front, lowest, back⟩ := parts
          have member : lowest ∈ after := by
            rw [(cut_eq_some divided).1]
            exact List.mem_append_cons_self
          simp [cut, divided, least lowest member]
  | cons other before ih =>
      have rest := ih fun link member => higher link (List.mem_cons_of_mem _ member)
      have above := Nat.not_le.mpr (higher other List.mem_cons_self)
      simp [cut, rest, above]

theorem cut_eq_some_iff : cut links = some (before, link, after) ↔
    links = before ++ link :: after ∧
      (∀ other ∈ before, link.1.value.rank < other.1.value.rank) ∧
      ∀ other ∈ after, link.1.value.rank ≤ other.1.value.rank := by
  constructor
  · exact cut_eq_some
  · rintro ⟨rfl, higher, least⟩
    exact cut_append higher least

example (place : Span) (a b c : Expr) :
    cut [(⟨.add, place⟩, a), (⟨.sub, place⟩, b), (⟨.sub, place⟩, c)] =
      some ([(⟨.add, place⟩, a)], (⟨.sub, place⟩, b), [(⟨.sub, place⟩, c)]) := rfl

theorem cut_shortens (divided : cut links = some (before, link, after)) :
    before.length < links.length ∧ after.length < links.length := by
  rw [(cut_eq_some_iff.mp divided).1, List.length_append, List.length_cons]
  omega

/-- The tree of a chain that starts with `first`. -/
def tree (first : Expr) (links : Links) : Expr :=
  match _divided : cut links with
  | none => first
  | some (before, (op, operand), after) => .binary op (tree first before) (tree operand after)
termination_by links.length
decreasing_by
  · exact (cut_shortens ‹_›).1
  · exact (cut_shortens ‹_›).2

theorem tree_nil (first : Expr) : tree first [] = first := by
  rw [tree]
  rfl

theorem tree_divided (first : Expr) {op : Spanned Binary} {operand : Expr}
    (divided : cut links = some (before, (op, operand), after)) :
    tree first links = .binary op (tree first before) (tree operand after) := by
  rw [tree]
  split
  · rename_i uncut
    rw [divided] at uncut
    contradiction
  · rename_i found
    rw [divided] at found
    obtain ⟨rfl, rfl, rfl⟩ := found
    rfl

end Links

/-- A run of digits. -/
structure Digits where
  chars : List Char
  filled : chars ≠ []
  decimal : ∀ c ∈ chars, c.isDigit = true

mutual

inductive Operand where
  | number (digits : Digits)
  -- The minus touches the digits.
  | signed (digits : Digits)
  -- A blank stands between the minus and the digits.
  | negated (digits : Digits)
  | group (first : Operand) (rest : Tail)

/-- What a chain goes on with behind an operand. -/
inductive Tail where
  | done
  | more (op : Binary) (operand : Operand) (rest : Tail)

end

/-- A chain that makes up a whole text. Only its first operand may be a negated group. -/
inductive Sentence where
  | chain (first : Operand) (rest : Tail)
  | negated (first : Operand) (inner rest : Tail)

section Text

mutual

def Operand.written : Operand → List Char
  | .number digits => digits.chars
  | .signed digits => '-' :: digits.chars
  | .negated digits => '-' :: ' ' :: digits.chars
  | .group first rest => '(' :: (first.written ++ (rest.written ++ [')']))

def Tail.written : Tail → List Char
  | .done => []
  | .more op operand rest => ' ' :: op.sign :: ' ' :: (operand.written ++ rest.written)

end

def Sentence.written : Sentence → List Char
  | .chain first rest => first.written ++ rest.written
  | .negated first inner rest => '-' :: ((Operand.group first inner).written ++ rest.written)

example :
    let one : Digits := ⟨['1'], List.cons_ne_nil _ _, by simp⟩
    let two : Digits := ⟨['2'], List.cons_ne_nil _ _, by simp⟩
    (Sentence.negated (.number one) (.more .add (.signed two) .done)
      (.more .mul (.negated one) .done)).written = "-(1 + -2) * - 1".toList := rfl

end Text

/-! Every number and operator of the tree keeps its place, a sentence being `offset` bytes behind the
start of the text. -/
section Meaning

mutual

def Operand.tree (offset : Nat) : Operand → Expr
  | .number digits => .number ⟨digits.chars, .sized offset (Text.size digits.chars)⟩
  | .signed digits => .number ⟨'-' :: digits.chars, .sized offset (Text.size ('-' :: digits.chars))⟩
  | .negated digits =>
    .negate (.sized offset 1) (.number ⟨digits.chars, .sized (offset + 2) (Text.size digits.chars)⟩)
  | .group first rest =>
    Links.tree (first.tree (offset + 1)) (rest.links (offset + 1 + Text.size first.written))

def Tail.links (offset : Nat) : Tail → Links
  | .done => []
  | .more op operand rest =>
    (⟨op, .sized (offset + 1) 1⟩, operand.tree (offset + 3)) ::
      rest.links (offset + 3 + Text.size operand.written)

end

def Sentence.tree : Sentence → Expr
  | .chain first rest => Links.tree (first.tree 0) (rest.links (Text.size first.written))
  | .negated first inner rest =>
    Links.tree (.negate (.sized 0 1) ((Operand.group first inner).tree 1))
      (rest.links (1 + Text.size (Operand.group first inner).written))

end Meaning

end Rpn
