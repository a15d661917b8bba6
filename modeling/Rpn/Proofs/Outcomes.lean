import Rpn.Proofs.Modes
/-!
How a conversion ends. A text that is not converted has invalid characters or parentheses that do not
match, and only asking for one complete expression adds a third way to fail.
-/
namespace Rpn

variable {mode : Mode} {text : List Char} {symbols : Postfix} {error : ConvertError}

theorem scan_eq_error {errors : List (Spanned ScanError)} (failed : scan mode text = .error errors) :
    errors = (invalidFrom 0 text).map (Spanned.map .invalidChar) := by
  cases mode with
  | tolerant =>
      rw [scan_tolerant] at failed
      contradiction
  | strict =>
      by_cases found : ∃ c ∈ text, Invalid c
      · rw [scan_strict_invalid found] at failed
        exact (Except.error.inj failed).symm
      · rw [scan_strict_valid fun c member invalid => found ⟨c, member, invalid⟩] at failed
        contradiction

theorem toPostfix_eq_error (failed : toPostfix mode text = .error error) :
    (∃ errors, scan mode text = .error errors ∧ error = .scan errors) ∨
      ∃ tokens reason, scan mode text = .ok tokens ∧ parse tokens = .error reason ∧
        error = .parens reason := by
  rw [toPostfix] at failed
  cases scanned : scan mode text with
  | error errors =>
      rw [scanned] at failed
      exact .inl ⟨errors, rfl, (Except.error.inj failed).symm⟩
  | ok tokens =>
      rw [scanned] at failed
      change (parse tokens).mapError .parens = .error error at failed
      cases parsed : parse tokens with
      | ok symbols =>
          rw [parsed] at failed
          contradiction
      | error reason =>
          rw [parsed] at failed
          exact .inr ⟨tokens, reason, rfl, parsed, (Except.error.inj failed).symm⟩

theorem convert_eq_ok (converted : convert mode text = .ok symbols) :
    toPostfix mode text = .ok symbols ∧ symbols.validate (Text.whole text) = .ok () := by
  rw [convert] at converted
  split at converted
  · contradiction
  · rename_i out read
    split at converted
    · rename_i valid
      obtain rfl := Except.ok.inj converted
      exact ⟨read, valid⟩
    · contradiction

theorem convert_eq_error (failed : convert mode text = .error error) :
    toPostfix mode text = .error error ∨ ∃ symbols reason, toPostfix mode text = .ok symbols ∧
      symbols.validate (Text.whole text) = .error reason ∧ error = .shape reason := by
  rw [convert] at failed
  split at failed
  · rename_i early read
    obtain rfl := Except.error.inj failed
    exact .inl read
  · rename_i out read
    split at failed
    · contradiction
    · rename_i reason invalid
      exact .inr ⟨out, reason, read, invalid, (Except.error.inj failed).symm⟩

end Rpn
