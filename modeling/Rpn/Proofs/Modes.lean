import Rpn.Conversion
import Rpn.Proofs.Reading
/-!
The two modes. Asking for the next token again and again gives the pieces of the text in their order,
and in strict mode an error for each character that is no part of an expression. The tokens are those
of tolerant mode, and they are the tokens of the text with blanks in place of these characters. So
strict mode converts what tolerant mode converts, as long as every character has a meaning.
-/
namespace Rpn

/-- What one request for the next token gives. -/
abbrev Item := Except (Spanned ScanError) Token

namespace Item

def token? : Item → Option Token
  | .ok token => some token
  | .error _ => none

def error? : Item → Option (Spanned ScanError)
  | .ok _ => none
  | .error error => some error

def place : Item → Span
  | .ok token => token.span
  | .error error => error.span

end Item

namespace Piece

def place : Piece → Span
  | .token found => found.span
  | .invalid c => c.span

def item? (mode : Mode) : Piece → Option Item
  | .token found => some (.ok found)
  | .invalid c => (Piece.invalid c).error? mode |>.map .error

theorem item?_token (mode : Mode) (piece : Piece) :
    (piece.item? mode).bind Item.token? = piece.token? := by
  cases piece with
  | token found => rfl
  | invalid c => cases mode <;> rfl

theorem item?_error (mode : Mode) (piece : Piece) :
    (piece.item? mode).bind Item.error? = piece.error? mode := by
  cases piece with
  | token found => rfl
  | invalid c => cases mode <;> rfl

theorem item?_place {mode : Mode} {piece : Piece} {item : Item}
    (reported : piece.item? mode = some item) : item.place = piece.place := by
  cases piece with
  | token found =>
      obtain rfl := Option.some.inj reported
      rfl
  | invalid c =>
      cases mode with
      | tolerant => contradiction
      | strict =>
          obtain rfl := Option.some.inj reported
          rfl

end Piece

namespace Cursor

section Iteration

-- A request that finds a character without a meaning reports it or goes on to the next piece.
theorem next?_eq (mode : Mode) (cursor : Cursor) : cursor.next? mode =
    match cursor.read? with
    | none => none
    | some (piece, next) =>
      match piece.item? mode with
      | some item => some (item, next)
      | none => next.next? mode := by
  rw [next?]
  split
  · rename_i taken
    rw [taken]
  · rename_i piece next taken
    rw [taken]
    cases piece with
    | token token => rfl
    | invalid c => cases mode <;> rfl

theorem next?_shortens {mode : Mode} {cursor next : Cursor} {item : Item}
    (asked : cursor.next? mode = some (item, next)) : next.rest.length < cursor.rest.length := by
  induction cursor using Cursor.pieces.induct with
  | case1 cursor taken => simp [next?_eq, taken] at asked
  | case2 cursor piece behind taken ih =>
      have shorter := read?_shortens taken
      rw [next?_eq, taken] at asked
      cases reported : piece.item? mode with
      | none =>
          simp only [reported] at asked
          exact Nat.lt_trans (ih asked) shorter
      | some found =>
          simp only [reported, Option.some.injEq, Prod.mk.injEq] at asked
          rw [← asked.2]
          exact shorter

/-- Everything that asking again and again gives, up to the end of the text. -/
def items (mode : Mode) (cursor : Cursor) : List Item :=
  match _asked : cursor.next? mode with
  | none => []
  | some (item, next) => item :: next.items mode
termination_by cursor.rest.length
decreasing_by exact next?_shortens ‹_›

theorem items_eq (mode : Mode) (cursor : Cursor) : cursor.items mode =
    match cursor.next? mode with
    | none => []
    | some (item, next) => item :: next.items mode := by
  rw [items]
  split <;> rename_i asked <;> simp [asked]

theorem items_pieces (mode : Mode) (cursor : Cursor) :
    cursor.items mode = cursor.pieces.filterMap (Piece.item? mode) := by
  induction cursor using Cursor.pieces.induct with
  | case1 cursor taken => rw [items_eq, next?_eq, pieces_eq, taken, List.filterMap_nil]
  | case2 cursor piece next taken ih =>
      rw [pieces_eq, taken]
      cases reported : piece.item? mode with
      | none =>
          rw [List.filterMap_cons_none reported, ← ih, items_eq mode cursor, items_eq mode next,
            next?_eq mode cursor, taken]
          simp only [reported]
      | some item =>
          rw [List.filterMap_cons_some reported, ← ih, items_eq mode cursor, next?_eq, taken]
          simp only [reported]

theorem items_tokens (mode : Mode) (cursor : Cursor) :
    (cursor.items mode).filterMap Item.token? = cursor.tokens := by
  rw [items_pieces, List.filterMap_filterMap, tokens]
  exact congrArg (List.filterMap · cursor.pieces) (funext (Piece.item?_token mode))

theorem items_errors (mode : Mode) (cursor : Cursor) :
    (cursor.items mode).filterMap Item.error? = cursor.pieces.filterMap (Piece.error? mode) := by
  rw [items_pieces, List.filterMap_filterMap]
  exact congrArg (List.filterMap · cursor.pieces) (funext (Piece.item?_error mode))

end Iteration

section Order

theorem readFrom_bounds (cursor : Cursor) (c : Char) (rest : List Char) :
    (cursor.readFrom c rest).1.place.lo = cursor.offset ∧
      cursor.offset < (cursor.readFrom c rest).1.place.hi ∧
      (cursor.readFrom c rest).1.place.hi = (cursor.readFrom c rest).2.offset := by
  have filled := Char.utf8Size_pos c
  unfold readFrom
  split
  · exact ⟨rfl, Nat.lt_add_of_pos_right (Nat.add_pos_left filled _), rfl⟩
  · dsimp only
    split <;> exact ⟨rfl, Nat.lt_add_of_pos_right filled, rfl⟩

theorem read?_bounds {cursor next : Cursor} {piece : Piece}
    (taken : cursor.read? = some (piece, next)) :
    cursor.offset ≤ piece.place.lo ∧ piece.place.lo < piece.place.hi ∧
      piece.place.hi = next.offset := by
  unfold read? at taken
  split at taken
  · contradiction
  · rename_i c rest left
    have bounds := readFrom_bounds cursor.skipBlank c rest
    rw [Option.some.inj taken] at bounds
    have skipped : cursor.offset ≤ cursor.skipBlank.offset := Nat.le_add_right _ _
    dsimp only at bounds
    omega

theorem pieces_behind (cursor : Cursor) :
    ∀ piece ∈ cursor.pieces, cursor.offset ≤ piece.place.lo ∧ piece.place.lo < piece.place.hi := by
  induction cursor using Cursor.pieces.induct with
  | case1 cursor taken => simp [pieces_eq, taken]
  | case2 cursor piece next taken ih =>
      obtain ⟨start, filled, finish⟩ := read?_bounds taken
      rw [pieces_eq, taken]
      intro other member
      rcases List.mem_cons.mp member with rfl | later
      · exact ⟨start, filled⟩
      · have behind := ih other later
        exact ⟨by omega, behind.2⟩

theorem pieces_ordered (cursor : Cursor) :
    cursor.pieces.Pairwise fun first later => first.place.hi ≤ later.place.lo := by
  induction cursor using Cursor.pieces.induct with
  | case1 cursor taken => simp [pieces_eq, taken]
  | case2 cursor piece next taken ih =>
      have finish := (read?_bounds taken).2.2
      rw [pieces_eq, taken]
      apply List.pairwise_cons.mpr
      refine ⟨?_, ih⟩
      intro later member
      rw [finish]
      exact (pieces_behind next later member).1

theorem items_ordered (mode : Mode) (cursor : Cursor) :
    (cursor.items mode).Pairwise fun first later => first.place.hi ≤ later.place.lo := by
  rw [items_pieces, List.pairwise_filterMap]
  apply (pieces_ordered cursor).imp
  intro first later before item reported other reportedLater
  rw [Piece.item?_place reported, Piece.item?_place reportedLater]
  exact before

theorem items_filled (mode : Mode) (cursor : Cursor) :
    ∀ item ∈ cursor.items mode, item.place.lo < item.place.hi := by
  intro item member
  rw [items_pieces] at member
  obtain ⟨piece, present, reported⟩ := List.mem_filterMap.mp member
  rw [Piece.item?_place reported]
  exact (pieces_behind cursor piece present).2

end Order

end Cursor

section Invalid
variable {text : List Char}

/-- The invalid characters of a text that stands `offset` bytes behind the start, each at its bytes. -/
def invalidFrom (offset : Nat) : List Char → List (Spanned Char)
  | [] => []
  | c :: rest =>
    if Invalid c then ⟨c, .sized offset c.utf8Size⟩ :: invalidFrom (offset + c.utf8Size) rest
    else invalidFrom (offset + c.utf8Size) rest

theorem invalidFrom_valid {front : List Char} (valid : ∀ c ∈ front, ¬ Invalid c) (back : List Char)
    (offset : Nat) :
    invalidFrom offset (front ++ back) = invalidFrom (offset + Text.size front) back := by
  induction front generalizing offset with
  | nil => rfl
  | cons c front ih =>
      have tail := ih (fun d member => valid d (List.mem_cons_of_mem _ member)) (offset + c.utf8Size)
      rw [List.cons_append, invalidFrom, if_neg (valid c List.mem_cons_self), tail, Text.size,
        Nat.add_assoc]

theorem invalidFrom_eq_nil_iff (offset : Nat) (text : List Char) :
    invalidFrom offset text = [] ↔ ∀ c ∈ text, ¬ Invalid c := by
  induction text generalizing offset with
  | nil => simp [invalidFrom]
  | cons c rest ih =>
      by_cases invalid : Invalid c
      · simp [invalidFrom, invalid]
      · simp [invalidFrom, invalid, ih]

theorem not_invalid_of_isDigit {c : Char} (digit : c.isDigit = true) : ¬ Invalid c := by
  intro invalid
  rw [invalid.2.1] at digit
  contradiction

theorem not_invalid_of_ofChar? {c : Char} {kind : Kind} (known : Kind.ofChar? c = some kind) :
    ¬ Invalid c := by
  intro invalid
  rw [ofChar?_eq_none_iff.mpr invalid.2.2] at known
  contradiction

-- A numeral starts with a digit or a minus and goes on with digits.
theorem not_invalid_of_beginsNumeral {c : Char} {rest : List Char} {afterNumber : Bool}
    (begins : Cursor.beginsNumeral afterNumber c rest = true) :
    ∀ d ∈ c :: rest.takeWhile Char.isDigit, ¬ Invalid d := by
  intro d member
  rcases List.mem_cons.mp member with rfl | later
  · simp only [Cursor.beginsNumeral, Bool.or_eq_true, Bool.and_eq_true, beq_iff_eq] at begins
    rcases begins with digit | ⟨⟨rfl, _⟩, _⟩
    · exact not_invalid_of_isDigit digit
    · decide
  · exact not_invalid_of_isDigit (List.all_eq_true.mp List.all_takeWhile d later)

theorem pieces_errors (text : List Char) (offset : Nat) (afterNumber : Bool) :
    (Cursor.mk text offset afterNumber).pieces.filterMap (Piece.error? .strict) =
      (invalidFrom offset text).map (Spanned.map .invalidChar) := by
  induction text, offset, afterNumber using Cursor.reading_induction with
  | done offset afterNumber =>
      rw [Cursor.pieces_end]
      rfl
  | blank c rest offset afterNumber blank ih =>
      have valid : ¬ Invalid c := by simp [Invalid, blank]
      rw [Cursor.pieces_blank blank, ih, invalidFrom, if_neg valid]
  | invalid c rest offset afterNumber invalid ih =>
      rw [Cursor.pieces_invalid invalid, invalidFrom, if_pos invalid, List.map_cons, ← ih]
      rfl
  | numeral c rest offset afterNumber begins ih =>
      have split := invalidFrom_valid (not_invalid_of_beginsNumeral begins)
        (rest.dropWhile Char.isDigit) offset
      rw [List.cons_append, List.takeWhile_append_dropWhile] at split
      rw [Cursor.pieces_numeral begins, List.filterMap_cons_none rfl, ih, split]
  | sign c rest offset afterNumber kind single known ih =>
      have size := (ofChar?_eq_some known).2.2.2.2.2
      rw [Cursor.pieces_single single known, List.filterMap_cons_none rfl, ih, invalidFrom,
        if_neg (not_invalid_of_ofChar? known), size]

end Invalid

section Blanked

/-- The text with as many blanks in place of each invalid character as it has bytes. -/
def blanked (text : List Char) : List Char :=
  text.flatMap fun c => if Invalid c then List.replicate c.utf8Size ' ' else [c]

theorem blanked_valid {c : Char} (valid : ¬ Invalid c) (rest : List Char) :
    blanked (c :: rest) = c :: blanked rest := by
  simp [blanked, valid]

theorem blanked_invalid {c : Char} (invalid : Invalid c) (rest : List Char) :
    blanked (c :: rest) = List.replicate c.utf8Size ' ' ++ blanked rest := by
  simp [blanked, invalid]

-- A blank ends a run of digits no less than the invalid character it stands for.
theorem touchesDigit_blanked (rest : List Char) :
    Cursor.touchesDigit (blanked rest) = Cursor.touchesDigit rest := by
  cases rest with
  | nil => rfl
  | cons c rest =>
      by_cases invalid : Invalid c
      · obtain ⟨count, size⟩ := Nat.exists_eq_succ_of_ne_zero (Nat.ne_of_gt (Char.utf8Size_pos c))
        rw [blanked_invalid invalid, size, List.replicate_succ]
        exact invalid.2.1.symm
      · rw [blanked_valid invalid]
        rfl

theorem beginsNumeral_blanked (afterNumber : Bool) (c : Char) (rest : List Char) :
    Cursor.beginsNumeral afterNumber c (blanked rest) = Cursor.beginsNumeral afterNumber c rest := by
  rw [Cursor.beginsNumeral, Cursor.beginsNumeral, touchesDigit_blanked]

theorem blanked_digits (rest : List Char) :
    (blanked rest).takeWhile Char.isDigit = rest.takeWhile Char.isDigit ∧
      (blanked rest).dropWhile Char.isDigit = blanked (rest.dropWhile Char.isDigit) := by
  induction rest with
  | nil => exact ⟨rfl, rfl⟩
  | cons c rest ih =>
      cases digit : c.isDigit with
      | true =>
          rw [blanked_valid (not_invalid_of_isDigit digit)]
          simp [digit, ih]
      | false =>
          have stops : Cursor.touchesDigit (blanked (c :: rest)) = false := by
            rw [touchesDigit_blanked]
            exact digit
          have none : ∀ d ∈ ([] : List Char), d.isDigit = true := nofun
          simpa [digit] using Cursor.digits_split none stops

theorem pieces_blanks (count : Nat) (rest : List Char) (offset : Nat) (afterNumber : Bool) :
    (Cursor.mk (List.replicate count ' ' ++ rest) offset afterNumber).pieces =
      (Cursor.mk rest (offset + count) afterNumber).pieces := by
  induction count generalizing offset with
  | zero => rfl
  | succ count ih =>
      rw [List.replicate_succ, List.cons_append, Cursor.pieces_blank rfl, ih, Nat.add_assoc,
        Nat.add_comm count]
      rfl

theorem pieces_blanked (text : List Char) (offset : Nat) (afterNumber : Bool) :
    (Cursor.mk (blanked text) offset afterNumber).pieces =
      (Cursor.mk text offset afterNumber).tokens.map .token := by
  induction text, offset, afterNumber using Cursor.reading_induction with
  | done offset afterNumber =>
      rw [Cursor.tokens_end]
      exact Cursor.pieces_end offset afterNumber
  | blank c rest offset afterNumber blank ih =>
      have valid : ¬ Invalid c := by simp [Invalid, blank]
      rw [blanked_valid valid, Cursor.pieces_blank blank, ih,
        Cursor.tokens_skipped (skipped_of_isBlank blank)]
  | invalid c rest offset afterNumber invalid ih =>
      rw [blanked_invalid invalid, pieces_blanks, ih,
        Cursor.tokens_skipped (invalid_iff.mp invalid).2]
  | numeral c rest offset afterNumber begins ih =>
      have valid := not_invalid_of_beginsNumeral begins c List.mem_cons_self
      obtain ⟨taken, dropped⟩ := blanked_digits rest
      have same : Cursor.beginsNumeral afterNumber c (blanked rest) = true := by
        rw [beginsNumeral_blanked, begins]
      rw [blanked_valid valid, Cursor.pieces_numeral same, taken, dropped, ih,
        Cursor.tokens_numeral begins]
      rfl
  | sign c rest offset afterNumber kind single known ih =>
      have same : Cursor.beginsNumeral afterNumber c (blanked rest) = false := by
        rw [beginsNumeral_blanked, single]
      rw [blanked_valid (not_invalid_of_ofChar? known), Cursor.pieces_single same known, ih,
        Cursor.tokens_single single known]
      rfl

end Blanked

section Agreement

/-- All tokens from here on are collected by asking again and again. -/
theorem tokenize_items (mode : Mode) (cursor : Cursor) : cursor.tokenize mode =
    match (cursor.items mode).filterMap Item.error? with
    | [] => .ok ((cursor.items mode).filterMap Item.token?)
    | errors => .error errors := by
  rw [Cursor.items_tokens, Cursor.items_errors]
  rfl

theorem scan_strict_valid {text : List Char} (valid : ∀ c ∈ text, ¬ Invalid c) :
    scan .strict text = .ok (Cursor.ofText text).tokens := by
  have none := (invalidFrom_eq_nil_iff 0 text).mpr valid
  rw [scan, tokenize_items, Cursor.items_errors, Cursor.items_tokens, Cursor.ofText, pieces_errors,
    none]
  rfl

theorem scan_strict_invalid {text : List Char} (found : ∃ c ∈ text, Invalid c) :
    scan .strict text = .error ((invalidFrom 0 text).map (Spanned.map .invalidChar)) := by
  rw [scan, tokenize_items, Cursor.items_errors, Cursor.ofText, pieces_errors]
  cases reported : invalidFrom 0 text with
  | nil =>
      obtain ⟨c, member, invalid⟩ := found
      have valid := (invalidFrom_eq_nil_iff 0 text).mp reported
      exact absurd invalid (valid c member)
  | cons first later => rfl

theorem scan_strict_eq_ok {text : List Char} {tokens : List Token} :
    scan .strict text = .ok tokens ↔
      (∀ c ∈ text, ¬ Invalid c) ∧ tokens = (Cursor.ofText text).tokens := by
  by_cases found : ∃ c ∈ text, Invalid c
  · have some : ¬ ∀ c ∈ text, ¬ Invalid c := by
      obtain ⟨c, member, invalid⟩ := found
      exact fun valid => valid c member invalid
    simp [scan_strict_invalid found, some]
  · have valid : ∀ c ∈ text, ¬ Invalid c := fun c member invalid => found ⟨c, member, invalid⟩
    rw [scan_strict_valid valid, Except.ok.injEq, eq_comm]
    exact (and_iff_right valid).symm

theorem scan_eq_ok {mode : Mode} {text : List Char} {tokens : List Token}
    (scanned : scan mode text = .ok tokens) : tokens = (Cursor.ofText text).tokens := by
  cases mode with
  | tolerant =>
      rw [scan_tolerant] at scanned
      exact (Except.ok.inj scanned).symm
  | strict => exact (scan_strict_eq_ok.mp scanned).2

theorem toPostfix_eq_ok {mode : Mode} {text : List Char} {symbols : Postfix} :
    toPostfix mode text = .ok symbols ↔
      ∃ tokens, scan mode text = .ok tokens ∧ parse tokens = .ok symbols := by
  rw [toPostfix]
  cases scanned : scan mode text with
  | error errors => simp
  | ok tokens =>
      simp only [Except.ok.injEq, exists_eq_left']
      cases parse tokens with
      | error error => exact ⟨nofun, nofun⟩
      | ok out => exact ⟨congrArg _ ∘ Except.ok.inj, congrArg _ ∘ Except.ok.inj⟩

theorem scan_blanked (mode : Mode) (text : List Char) :
    scan mode (blanked text) = .ok (Cursor.ofText text).tokens := by
  have pieces := pieces_blanked text 0 false
  have none : (Cursor.ofText (blanked text)).pieces.filterMap (Piece.error? mode) = [] := by
    rw [Cursor.ofText, pieces, List.filterMap_map]
    exact List.filterMap_eq_nil_iff.mpr fun token _ => rfl
  have all : (Cursor.ofText (blanked text)).pieces.filterMap Piece.token? =
      (Cursor.ofText text).tokens := by
    rw [Cursor.ofText, pieces, List.filterMap_map]
    exact List.filterMap_some
  rw [scan, Cursor.tokenize, none, all]

/-- Asking again and again in strict mode gives the tokens of tolerant mode and one error for every
invalid character, in the order in which they stand. So strict mode reads a text exactly when none of
its characters is invalid, and else reports all that are, and what stands between the tokens might as
well be blank. -/
theorem modes_agree (text : List Char) :
    scan .tolerant text = .ok (((Cursor.ofText text).items .strict).filterMap Item.token?) ∧
    ((Cursor.ofText text).items .strict).filterMap Item.error? =
      (invalidFrom 0 text).map (Spanned.map .invalidChar) ∧
    ((Cursor.ofText text).items .strict).Pairwise
      (fun first later => first.place.hi ≤ later.place.lo) ∧
    (∀ item ∈ (Cursor.ofText text).items .strict, item.place.lo < item.place.hi) ∧
    ((∃ tokens, scan .strict text = .ok tokens) ↔ ∀ c ∈ text, ¬ Invalid c) ∧
    ((∃ c ∈ text, Invalid c) →
      scan .strict text = .error ((invalidFrom 0 text).map (Spanned.map .invalidChar))) ∧
    scan .strict (blanked text) = scan .tolerant text ∧
    ∀ symbols, toPostfix .strict text = .ok symbols ↔
      (∀ c ∈ text, ¬ Invalid c) ∧ toPostfix .tolerant text = .ok symbols := by
  refine ⟨?_, ?_, Cursor.items_ordered _ _, Cursor.items_filled _ _, ?_, ?_, ?_, ?_⟩
  · rw [Cursor.items_tokens, scan_tolerant]
  · rw [Cursor.items_errors]
    exact pieces_errors text 0 false
  · constructor
    · rintro ⟨tokens, scanned⟩
      exact (scan_strict_eq_ok.mp scanned).1
    · exact fun valid => ⟨_, scan_strict_valid valid⟩
  · exact scan_strict_invalid
  · rw [scan_blanked, scan_tolerant]
  · intro symbols
    rw [toPostfix_eq_ok, toPostfix_eq_ok]
    simp only [scan_strict_eq_ok, scan_tolerant, Except.ok.injEq, and_assoc, exists_and_left,
      exists_eq_left, exists_eq_left']

/-- In `-$2` the minus does not touch the digit, so both modes find the tokens of `- 2`, and strict mode
reports the sign between them. -/
theorem modes_agree_between :
    let text := ['-', '$', '2']
    let minus : Token := ⟨.operator (.binary .sub), .sized 0 1⟩
    let two : Token := ⟨.number ['2'], .sized 2 1⟩
    (∃ c ∈ text, Invalid c) ∧
    scan .strict text = .error [⟨.invalidChar '$', .sized 1 1⟩] ∧
    scan .strict ['-', ' ', '2'] = scan .tolerant text ∧ scan .tolerant text = .ok [minus, two] := by
  intro text minus two
  obtain ⟨tolerant, _, _, _, _, reported, replaced, _⟩ := modes_agree text
  have found : ∃ c ∈ text, Invalid c := ⟨'$', by decide, by decide⟩
  have read : (Cursor.ofText text).tokens = [minus, two] := by decide +kernel
  exact ⟨found, reported found, replaced, (scan_tolerant text).trans (congrArg Except.ok read)⟩

end Agreement

end Rpn
