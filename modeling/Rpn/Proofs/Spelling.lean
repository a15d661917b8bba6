import Rpn.Proofs.Grammar
import Rpn.Proofs.Marking
import Rpn.Proofs.Reading
/-!
The tokens of a sentence. Reading a sentence gives its tokens with every minus as a subtraction, and
the marks turn the right ones of these into negations.
-/
namespace Rpn

/-! What a minus in front of an operand counts as is left open here. -/
section Tokens
variable (minus : Operator)

mutual

def Operand.tokens (offset : Nat) : Operand → List Token
  | .number digits => [⟨.number digits.chars, .sized offset (Text.size digits.chars)⟩]
  | .signed digits =>
    [⟨.number ('-' :: digits.chars), .sized offset (Text.size ('-' :: digits.chars))⟩]
  | .negated digits =>
    [⟨.operator minus, .sized offset 1⟩,
      ⟨.number digits.chars, .sized (offset + 2) (Text.size digits.chars)⟩]
  | .group first rest =>
    ⟨.paren .opening, .sized offset 1⟩ ::
      (first.tokens (offset + 1) ++
        (rest.tokens (offset + 1 + Text.size first.written) ++
          [⟨.paren .closing,
            .sized (offset + 1 + Text.size first.written + Text.size rest.written) 1⟩]))

def Tail.tokens (offset : Nat) : Tail → List Token
  | .done => []
  | .more op operand rest =>
    ⟨.operator (.binary op), .sized (offset + 1) 1⟩ ::
      (operand.tokens (offset + 3) ++ rest.tokens (offset + 3 + Text.size operand.written))

end

def Sentence.tokens : Sentence → List Token
  | .chain first rest => first.tokens minus 0 ++ rest.tokens minus (Text.size first.written)
  | .negated first inner rest =>
    ⟨.operator minus, .sized 0 1⟩ :: ((Operand.group first inner).tokens minus 1 ++
      rest.tokens minus (1 + Text.size (Operand.group first inner).written))

end Tokens

namespace Cursor

theorem pieces_digits (digits : Digits) {rest : List Char} (stops : touchesDigit rest = false)
    (offset : Nat) (afterNumber : Bool) :
    (Cursor.mk (digits.chars ++ rest) offset afterNumber).pieces =
      .token ⟨.number digits.chars, .sized offset (Text.size digits.chars)⟩ ::
      (Cursor.mk rest (offset + Text.size digits.chars) true).pieces := by
  obtain ⟨chars, filled, decimal⟩ := digits
  cases chars with
  | nil => contradiction
  | cons c chars =>
      obtain ⟨taken, dropped⟩ :=
        digits_split (fun d member => decimal d (List.mem_cons_of_mem _ member)) stops
      have begins : beginsNumeral afterNumber c (chars ++ rest) = true := by
        simp [beginsNumeral, decimal c List.mem_cons_self]
      rw [List.cons_append, pieces_numeral begins, taken, dropped]

theorem pieces_signed (digits : Digits) {rest : List Char} (stops : touchesDigit rest = false)
    (offset : Nat) :
    (Cursor.mk ('-' :: (digits.chars ++ rest)) offset false).pieces =
      .token ⟨.number ('-' :: digits.chars), .sized offset (Text.size ('-' :: digits.chars))⟩ ::
      (Cursor.mk rest (offset + Text.size ('-' :: digits.chars)) true).pieces := by
  obtain ⟨chars, filled, decimal⟩ := digits
  obtain ⟨taken, dropped⟩ := digits_split decimal stops
  have begins : beginsNumeral false '-' (chars ++ rest) = true := by
    cases chars with
    | nil => contradiction
    | cons c chars => simp [beginsNumeral, touchesDigit, decimal c List.mem_cons_self]
  rw [pieces_numeral begins, taken, dropped]

theorem pieces_space (rest : List Char) (offset : Nat) (afterNumber : Bool) :
    (Cursor.mk (' ' :: rest) offset afterNumber).pieces =
      (Cursor.mk rest (offset + 1) afterNumber).pieces :=
  pieces_blank rfl rest offset afterNumber

-- A blank behind an operator keeps it from being part of a number.
theorem pieces_operator (op : Binary) (rest : List Char) (offset : Nat) (afterNumber : Bool) :
    (Cursor.mk (op.sign :: ' ' :: rest) offset afterNumber).pieces =
      .token ⟨.operator (.binary op), .sized offset 1⟩ ::
      (Cursor.mk rest (offset + 2) false).pieces := by
  have single : beginsNumeral afterNumber op.sign (' ' :: rest) = false := by
    have blank : touchesDigit (' ' :: rest) = false := rfl
    cases op <;> simp [beginsNumeral, blank, Binary.sign]
  have known : Kind.ofChar? op.sign = some (.operator (.binary op)) := by
    cases op <;> rfl
  rw [pieces_single single known, pieces_space]

theorem pieces_paren (side : Side) (rest : List Char) (offset : Nat) (afterNumber : Bool) :
    (Cursor.mk (side.sign :: rest) offset afterNumber).pieces =
      .token ⟨.paren side, .sized offset 1⟩ :: (Cursor.mk rest (offset + 1) false).pieces := by
  cases side <;> exact pieces_single (by simp [beginsNumeral, Side.sign]) rfl offset

end Cursor

section Spelling
open Cursor

/-- The kind of the last token of an operand. -/
def Operand.last : Operand → Kind
  | .number digits => .number digits.chars
  | .signed digits => .number ('-' :: digits.chars)
  | .negated digits => .number digits.chars
  | .group _ _ => .paren .closing

def Tail.last (before : Kind) : Tail → Kind
  | .done => before
  | .more _ operand rest => rest.last operand.last

theorem Tail.stops (tail : Tail) {rest : List Char} (stops : touchesDigit rest = false) :
    touchesDigit (tail.written ++ rest) = false := by
  cases tail with
  | done => exact stops
  | more op operand later => rfl

theorem Operand.size_negated (digits : Digits) :
    Text.size (Operand.negated digits).written = 2 + Text.size digits.chars := by
  rw [written, Text.size, Text.size, ← Nat.add_assoc]
  rfl

theorem Operand.size_group (first : Operand) (rest : Tail) :
    Text.size (Operand.group first rest).written =
      1 + Text.size first.written + Text.size rest.written + 1 := by
  rw [written, Text.size, Text.size_append, Text.size_append, ← Nat.add_assoc, ← Nat.add_assoc]
  rfl

theorem Tail.size_more (op : Binary) (operand : Operand) (rest : Tail) :
    Text.size (Tail.more op operand rest).written =
      3 + Text.size operand.written + Text.size rest.written := by
  have single : op.sign.utf8Size = 1 := by
    cases op <;> rfl
  have blank : ' '.utf8Size = 1 := rfl
  rw [written, Text.size, Text.size, Text.size, Text.size_append, single, blank]
  omega

mutual

theorem Operand.pieces (operand : Operand) (offset : Nat) {rest : List Char}
    (stops : touchesDigit rest = false) :
    (Cursor.mk (operand.written ++ rest) offset false).pieces =
      (operand.tokens (.binary .sub) offset).map .token ++
        (Cursor.mk rest (offset + Text.size operand.written) operand.last.isNumber).pieces := by
  cases operand with
  | number digits => exact pieces_digits digits stops offset false
  | signed digits => exact pieces_signed digits stops offset
  | negated digits =>
      have minus := pieces_operator .sub (digits.chars ++ rest) offset false
      rw [pieces_digits digits stops, Nat.add_assoc] at minus
      rw [Operand.size_negated]
      exact minus
  | group first later =>
      rw [Operand.size_group]
      have closing : touchesDigit (')' :: rest) = false := rfl
      calc
        _ = (Cursor.mk ('(' :: (first.written ++ (later.written ++ ')' :: rest)))
              offset false).pieces := by simp [Operand.written]
        _ = _ := by
          rw [show '(' = Side.opening.sign from rfl, pieces_paren, first.pieces _ (later.stops closing),
            later.pieces _ _ closing, show ')' = Side.closing.sign from rfl, pieces_paren]
          simp [Operand.tokens, Nat.add_assoc, Operand.last, Kind.isNumber]

theorem Tail.pieces (tail : Tail) (offset : Nat) (before : Kind) {rest : List Char}
    (stops : touchesDigit rest = false) :
    (Cursor.mk (tail.written ++ rest) offset before.isNumber).pieces =
      (tail.tokens (.binary .sub) offset).map .token ++
        (Cursor.mk rest (offset + Text.size tail.written) (tail.last before).isNumber).pieces := by
  cases tail with
  | done => rfl
  | more op operand later =>
      rw [Tail.size_more]
      calc
        _ = (Cursor.mk (' ' :: op.sign :: ' ' :: (operand.written ++ (later.written ++ rest)))
              offset before.isNumber).pieces := by simp [Tail.written]
        _ = _ := by
          rw [pieces_space, pieces_operator, operand.pieces _ (later.stops stops),
            later.pieces _ _ stops]
          simp [Tail.tokens, Nat.add_assoc, Tail.last]

end

theorem Sentence.pieces (sentence : Sentence) :
    (ofText sentence.written).pieces = (sentence.tokens (.binary .sub)).map .token := by
  have stops : touchesDigit [] = false := rfl
  cases sentence with
  | chain first rest =>
      have front := first.pieces 0 (rest.stops stops)
      have back := rest.pieces (Text.size first.written) first.last stops
      rw [List.append_nil] at front back
      rw [Nat.zero_add, back, pieces_end, List.append_nil, ← List.map_append] at front
      exact front
  | negated first inner rest =>
      have front := (Operand.group first inner).pieces 1 (rest.stops stops)
      have back := rest.pieces (1 + Text.size (Operand.group first inner).written)
        (Operand.group first inner).last stops
      rw [List.append_nil] at front back
      rw [back, pieces_end, List.append_nil, ← List.map_append] at front
      have minus : (ofText (Sentence.negated first inner rest).written).pieces =
          .token ⟨.operator (.binary .sub), .sized 0 1⟩ ::
          (Cursor.mk ((Operand.group first inner).written ++ rest.written) 1 false).pieces :=
        pieces_single rfl rfl 0
      rw [minus, front]
      rfl

theorem Sentence.scan_written (sentence : Sentence) (mode : Mode) :
    scan mode sentence.written = .ok (sentence.tokens (.binary .sub)) := by
  have none : (ofText sentence.written).pieces.filterMap (Piece.error? mode) = [] := by
    rw [sentence.pieces, List.filterMap_map, List.filterMap_eq_nil_iff]
    intro token _
    rfl
  have all : (ofText sentence.written).pieces.filterMap Piece.token? =
      sentence.tokens (.binary .sub) := by
    rw [sentence.pieces, List.filterMap_map]
    exact List.filterMap_some
  rw [scan, tokenize, none, all]

end Spelling

section Marks
open Negation

/-- A minus in front of a number negates it. -/
def AwaitsOperand (before : Option Kind) : Prop :=
  ∀ lexeme, negates before (some (.number lexeme)) = true

theorem Operand.last_ends (operand : Operand) : EndsOperand operand.last := by
  cases operand with
  | number digits => exact endsOperand_number _
  | signed digits => exact endsOperand_number _
  | negated digits => exact endsOperand_number _
  | group first rest => exact endsOperand_closing

mutual

theorem Operand.mark (operand : Operand) (offset : Nat) {before : Option Kind}
    (awaits : AwaitsOperand before) (rest : List Token) :
    markFrom before (operand.tokens (.binary .sub) offset ++ rest) =
      operand.tokens .negate offset ++ markFrom (some operand.last) rest := by
  cases operand with
  | number digits => exact markFrom_plain (number_ne_sub _) before _ rest
  | signed digits => exact markFrom_plain (number_ne_sub _) before _ rest
  | negated digits =>
      have negated : resolve before (some (.number digits.chars)) (.operator (.binary .sub)) =
          .operator .negate := by
        simp [resolve, awaits digits.chars]
      simp only [Operand.tokens, List.cons_append, List.nil_append]
      rw [markFrom, markFrom_plain (number_ne_sub _), List.head?_cons, Option.map_some, Spanned.map, negated]
      rfl
  | group first later =>
      have opening : AwaitsOperand (some (.paren .opening)) := fun lexeme => rfl
      simp only [Operand.tokens, List.cons_append, List.append_assoc, List.nil_append]
      rw [markFrom_plain (paren_ne_sub _), first.mark _ opening, later.mark _ first.last_ends,
        markFrom_plain (paren_ne_sub _)]
      rfl

theorem Tail.mark (tail : Tail) (offset : Nat) {before : Kind} (ends : EndsOperand before)
    (rest : List Token) :
    markFrom (some before) (tail.tokens (.binary .sub) offset ++ rest) =
      tail.tokens .negate offset ++ markFrom (some (tail.last before)) rest := by
  cases tail with
  | done => rfl
  | more op operand later =>
      have operator : AwaitsOperand (some (.operator (.binary op))) := fun lexeme => rfl
      simp only [Tail.tokens, List.cons_append, List.append_assoc]
      rw [markFrom_ends ends, operand.mark _ operator, later.mark _ operand.last_ends]
      rfl

end

theorem Sentence.mark_tokens (sentence : Sentence) :
    mark (sentence.tokens (.binary .sub)) = sentence.tokens .negate := by
  have start : AwaitsOperand none := fun lexeme => rfl
  cases sentence with
  | chain first rest =>
      have back := rest.mark (Text.size first.written) first.last_ends []
      rw [List.append_nil] at back
      rw [mark, tokens, first.mark 0 start, back, markFrom, List.append_nil, tokens]
  | negated first inner rest =>
      have minus : AwaitsOperand (some (.operator (.binary .sub))) := fun lexeme => rfl
      have front := (Operand.group first inner).mark 1 minus
        (rest.tokens (.binary .sub) (1 + Text.size (Operand.group first inner).written))
      have back := rest.mark (1 + Text.size (Operand.group first inner).written)
        (Operand.group first inner).last_ends []
      rw [List.append_nil] at back
      rw [mark, tokens, markFrom, front, back, markFrom, List.append_nil, tokens]
      rfl

end Marks

end Rpn
