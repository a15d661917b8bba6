import Rpn.Proofs.Cuts
/-!
A text in parentheses. Where a text stands changes only the places of its tokens, and the closing
parenthesis behind it is read as it is after any token, so the tokens of the text are found again
between the two parentheses, each one byte later.
-/
namespace Rpn

/-- The text between an opening and a closing parenthesis. -/
def enclosed (text : List Char) : List Char := '(' :: (text ++ [')'])

namespace Cursor

-- The closing parenthesis is no digit, so it does not prolong a numeral or turn a minus into a sign.
theorem tokens_closing (text : List Char) (offset : Nat) (afterNumber : Bool) :
    (Cursor.mk (text ++ [')']) offset afterNumber).tokens =
      (Cursor.mk text offset afterNumber).tokens ++
        [⟨.paren .closing, .sized (offset + Text.size text) 1⟩] := by
  have known : Kind.ofChar? ')' = some (.paren .closing) := rfl
  rw [tokens_cut text [')'] offset afterNumber rfl, tokens_single _ known, tokens_end]
  cases numberLast afterNumber (Cursor.mk text offset afterNumber).tokens <;> rfl

theorem tokens_enclosed (text : List Char) :
    (Cursor.ofText (enclosed text)).tokens =
      ⟨.paren .opening, .sized 0 1⟩ ::
        ((Cursor.ofText text).tokens.map (Spanned.relabel (Span.shift 1)) ++
          [⟨.paren .closing, .sized (1 + Text.size text) 1⟩]) := by
  have single : beginsNumeral false '(' (text ++ [')']) = false := rfl
  have known : Kind.ofChar? '(' = some (.paren .opening) := rfl
  have inside := tokens_shift 1 text 0 false
  rw [ofText, enclosed, tokens_single single known, tokens_closing, inside]
  rfl

end Cursor

theorem invalid_enclosed (text : List Char) :
    (∀ c ∈ enclosed text, ¬ Invalid c) ↔ ∀ c ∈ text, ¬ Invalid c := by
  have opening : ¬ Invalid '(' := by decide
  have closing : ¬ Invalid ')' := by decide
  simp [enclosed, or_imp, forall_and, opening, closing]

theorem scan_enclosed {mode : Mode} {text : List Char} {tokens : List Token}
    (scanned : scan mode text = .ok tokens) :
    scan mode (enclosed text) =
      .ok (⟨.paren .opening, .sized 0 1⟩ :: (tokens.map (Spanned.relabel (Span.shift 1)) ++
        [⟨.paren .closing, .sized (1 + Text.size text) 1⟩])) := by
  have read := scan_eq_ok scanned
  rw [read, ← Cursor.tokens_enclosed]
  cases mode with
  | tolerant => exact scan_tolerant (enclosed text)
  | strict =>
      have valid := (scan_strict_eq_ok.mp scanned).1
      exact scan_strict_valid ((invalid_enclosed text).mpr valid)

end Rpn
