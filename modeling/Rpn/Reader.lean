import Rpn.Cursor
/-!
Reading tokens with places of 32 bits, as `next_token` does. A reader goes over the text one character
at a time and keeps count of the bytes itself, so it can lose its place: in `bump` the count can leave
its range, and at a place inside a character `lookahead` has nothing to look at and `view` no text that
ends there. Each of these is a fault, and a reader that comes to one has no answer. Otherwise it reads
what a cursor reads. `advance` is `bump`, `advanceWhile` is `eat_while`, and a `turn` is one round of the
loop of `next_token`.
-/
namespace Rpn

/-- What keeps a reader from going on. -/
inductive ReadFault where
  | tooLong
  | overflow
  | insideCharacter (place : UInt32)
  | noText (start place : UInt32)
deriving DecidableEq, Repr

/-- The characters that are left, the bytes in front of them, the place where the present piece starts
and the kind of the last token. -/
structure Reader where
  text : List Char
  rest : List Char
  mode : Mode
  start : UInt32 := 0
  place : UInt32 := 0
  last : Option Kind := none
deriving DecidableEq, Repr

namespace Reader

def ofText (mode : Mode) (text : List Char) : Except ReadFault Reader :=
  if Text.size text < UInt32.size then .ok { text, rest := text, mode } else .error .tooLong

-- Stands for the end of the text, and may stand in the text as well.
def endMark : Char := Char.ofNat 0

def first (reader : Reader) : Char := reader.rest.head?.getD endMark

def atEnd (reader : Reader) : Bool := reader.rest.isEmpty

def ahead (reader : Reader) : Except ReadFault Char :=
  if (Text.dropBytes? reader.place.toNat reader.text).isSome then .ok reader.first
  else .error (.insideCharacter reader.place)

def advance (reader : Reader) : Except ReadFault (Option (Char × Reader)) :=
  match reader.rest with
  | [] => .ok none
  | c :: rest =>
    if reader.place.toNat + c.utf8Size < UInt32.size then
      .ok (some (c, { reader with rest, place := .ofNat (reader.place.toNat + c.utf8Size) }))
    else .error .overflow

theorem advance_rest {reader next : Reader} {c : Char}
    (moved : reader.advance = .ok (some (c, next))) : reader.rest = c :: next.rest := by
  unfold advance at moved
  split at moved
  · simp at moved
  · split at moved
    · simp only [Except.ok.injEq, Option.some.injEq, Prod.mk.injEq] at moved
      obtain ⟨rfl, rfl⟩ := moved
      assumption
    · contradiction

def advanceWhile (keep : Char → Bool) (reader : Reader) : Except ReadFault Reader :=
  if !reader.atEnd && keep reader.first then
    match _moved : reader.advance with
    | .error fault => .error fault
    | .ok none => .ok reader
    | .ok (some (_, next)) => next.advanceWhile keep
  else .ok reader
termination_by reader.rest.length
decreasing_by
  rw [advance_rest _moved]
  exact Nat.lt_succ_self _

/-- The text of the present piece as far as it has been read. -/
def lexeme (reader : Reader) : Except ReadFault (List Char) :=
  if ordered : reader.start.toNat ≤ reader.place.toNat then
    match (Span.mk reader.start.toNat reader.place.toNat ordered).slice? reader.text with
    | some lexeme => .ok lexeme
    | none => .error (.noText reader.start reader.place)
  else .error (.noText reader.start reader.place)

def span (reader : Reader) : Span := .ofBounds reader.start.toNat reader.place.toNat

def numeral (reader : Reader) : Except ReadFault (Option Kind × Reader) :=
  match reader.advanceWhile Char.isDigit with
  | .error fault => .error fault
  | .ok behind => behind.lexeme.map fun lexeme => (some (.number lexeme), behind)

def minusBeginsNumeral (reader : Reader) : Except ReadFault Bool :=
  reader.ahead.map fun next => next.isDigit && !reader.last.any Kind.isNumber

-- The kind of the token that starts with `c`, which the reader has just passed.
def kind? (reader : Reader) (c : Char) : Except ReadFault (Option Kind × Reader) :=
  if c.isDigit then reader.numeral
  else if c == '-' then
    match reader.minusBeginsNumeral with
    | .error fault => .error fault
    | .ok true => reader.numeral
    | .ok false => .ok (Kind.ofChar? c, reader)
  else .ok (Kind.ofChar? c, reader)

/-- Whether a reader has an answer or goes on behind a character that is no token. -/
inductive Turn where
  | again
  | answer (item : Option (Except (Spanned ScanError) Token))
deriving Repr

def report (reader : Reader) (c : Char) (kind : Option Kind) : Turn × Reader :=
  match kind, reader.mode with
  | some kind, _ => (.answer (some (.ok ⟨kind, reader.span⟩)), { reader with last := some kind })
  | none, .strict => (.answer (some (.error ⟨.invalidChar c, reader.span⟩)), reader)
  | none, .tolerant => (.again, reader)

def beginPiece (reader : Reader) : Reader := { reader with start := reader.place }

def turn (reader : Reader) : Except ReadFault (Turn × Reader) :=
  match reader.advanceWhile Text.isBlank with
  | .error fault => .error fault
  | .ok reader =>
    match reader.beginPiece.advance with
    | .error fault => .error fault
    | .ok none => .ok (.answer none, reader.beginPiece)
    | .ok (some (c, behind)) =>
      (behind.kind? c).map fun (kind, behind) => behind.report c kind

section Shortening
variable {reader next : Reader}

theorem advanceWhile_le {keep : Char → Bool} (moved : reader.advanceWhile keep = .ok next) :
    next.rest.length ≤ reader.rest.length := by
  fun_induction reader.advanceWhile keep with
  | case1 reader more fault stuck => contradiction
  | case2 reader more ended =>
      obtain rfl := Except.ok.inj moved
      exact Nat.le_refl _
  | case3 reader more c behind stepped ih =>
      rw [advance_rest stepped]
      exact Nat.le_succ_of_le (ih moved)
  | case4 reader stop =>
      obtain rfl := Except.ok.inj moved
      exact Nat.le_refl _

theorem numeral_le {kind : Option Kind} (read : reader.numeral = .ok (kind, next)) :
    next.rest.length ≤ reader.rest.length := by
  unfold numeral at read
  split at read
  · contradiction
  · rename_i behind moved
    cases found : behind.lexeme with
    | error fault => simp [found, Except.map] at read
    | ok lexeme =>
        simp only [found, Except.map, Except.ok.injEq, Prod.mk.injEq] at read
        rw [← read.2]
        exact advanceWhile_le moved

theorem kind?_le {c : Char} {kind : Option Kind} (read : reader.kind? c = .ok (kind, next)) :
    next.rest.length ≤ reader.rest.length := by
  have single : (.ok (Kind.ofChar? c, reader) : Except ReadFault _) = .ok (kind, next) →
      next.rest.length ≤ reader.rest.length := by
    intro same
    injection same with same
    injection same with _ stays
    exact Nat.le_of_eq (congrArg (fun reader => reader.rest.length) stays.symm)
  unfold kind? at read
  split at read
  · exact numeral_le read
  · split at read
    · split at read
      · contradiction
      · exact numeral_le read
      · exact single read
    · exact single read

theorem report_rest (reader : Reader) (c : Char) (kind : Option Kind) :
    (reader.report c kind).2.rest = reader.rest := by
  unfold report
  split <;> rfl

theorem advance_none (ended : reader.advance = .ok none) : reader.rest = [] := by
  unfold advance at ended
  split at ended
  · assumption
  · split at ended <;> simp at ended

-- A turn that finds a character passes it.
theorem turn_shortens {turned : Turn} (done : reader.turn = .ok (turned, next)) :
    (turned = .answer none ∧ next.rest = []) ∨ next.rest.length < reader.rest.length := by
  unfold turn at done
  split at done
  · contradiction
  · rename_i filled skipped
    have blank := advanceWhile_le skipped
    split at done
    · contradiction
    · rename_i ended
      injection done with same
      injection same with answered stays
      exact .inl ⟨answered.symm, stays ▸ advance_none ended⟩
    · rename_i c behind moved
      have passed : filled.beginPiece.rest = c :: behind.rest := advance_rest moved
      change filled.rest = _ at passed
      cases read : behind.kind? c with
      | error fault => simp [read, Except.map] at done
      | ok result =>
          obtain ⟨kind, reader⟩ := result
          simp only [read, Except.map, Except.ok.injEq] at done
          have kept := report_rest reader c kind
          rw [done] at kept
          have shorter := kind?_le read
          rw [passed, List.length_cons] at blank
          rw [kept]
          exact .inr (by omega)

end Shortening

/-- The next token or error, `none` at the end of the text, and the reader behind it. -/
def next (reader : Reader) : Except ReadFault (Option (Except (Spanned ScanError) Token) × Reader) :=
  match _turned : reader.turn with
  | .error fault => .error fault
  | .ok (.answer item, behind) => .ok (item, behind)
  | .ok (.again, behind) => behind.next
termination_by reader.rest.length
decreasing_by exact (turn_shortens _turned).resolve_left (fun ended => nomatch ended.1)

/-- As many answers in a row, and the reader behind them. -/
def answers (reader : Reader) :
    Nat → Except ReadFault (List (Option (Except (Spanned ScanError) Token)) × Reader)
  | 0 => .ok ([], reader)
  | count + 1 =>
    match reader.answers count with
    | .error fault => .error fault
    | .ok (earlier, behind) => behind.next.map fun (item, last) => (earlier ++ [item], last)

end Reader

end Rpn
