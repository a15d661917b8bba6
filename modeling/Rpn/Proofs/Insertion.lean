import Rpn.Proofs.Cuts
import Rpn.Proofs.Outcomes
/-!
Putting blanks into a text. Between two tokens there is room for any number of them. What stands behind
them is read as before, only later in the text, and so is everything else in front of them. A line that
is trimmed loses blanks at both ends, so every place in it moves by as much as is lost at the start.
-/
namespace Rpn

/-- The span after `count` bytes are put in at `place`. What starts there or later moves. -/
def Span.makeRoom (place count : Nat) (span : Span) : Span :=
  if place ≤ span.lo then span.shift count else span

/-- What a scan gives, with all spans moved. -/
def relabelScan (move : Span → Span) :
    Except (List (Spanned ScanError)) (List Token) → Except (List (Spanned ScanError)) (List Token)
  | .ok tokens => .ok (tokens.map (Spanned.relabel move))
  | .error errors => .error (errors.map (Spanned.relabel move))

def ConvertError.relabel (move : Span → Span) : ConvertError → ConvertError
  | .scan errors => .scan (errors.map (Spanned.relabel move))
  | .parens error => .parens (error.relabel move)
  | .shape error => .shape (error.relabel move)

/-- What a conversion gives, with all spans moved. -/
def relabelPostfix (move : Span → Span) : Except ConvertError Postfix → Except ConvertError Postfix
  | .ok symbols => .ok (symbols.map (Spanned.relabel move))
  | .error error => .error (error.relabel move)

section Moving
variable {move : Span → Span} {text moved : List Char} {mode : Mode}

theorem scan_relabel
    (pieces : (Cursor.ofText moved).pieces = (Cursor.ofText text).pieces.map (Piece.relabel move)) :
    scan mode moved = relabelScan move (scan mode text) := by
  rw [scan, scan, Cursor.tokenize, Cursor.tokenize, pieces, tokens_relabel, errors_relabel]
  cases (Cursor.ofText text).pieces.filterMap (Piece.error? mode) <;> rfl

theorem toPostfix_relabel (scanned : scan mode moved = relabelScan move (scan mode text)) :
    toPostfix mode moved = relabelPostfix move (toPostfix mode text) := by
  rw [toPostfix, toPostfix, scanned]
  cases scan mode text with
  | error errors => rfl
  | ok tokens =>
      simp only [relabelScan, parse_relabel]
      cases parse tokens <;> rfl

end Moving

section Room
variable {front gap back : List Char}

theorem Piece.relabel_congr {move move' : Span → Span} {piece : Piece}
    (same : move piece.place = move' piece.place) : piece.relabel move = piece.relabel move' := by
  cases piece with
  | token found => exact congrArg (fun place => Piece.token ⟨found.value, place⟩) same
  | invalid c => exact congrArg (fun place => Piece.invalid ⟨c.value, place⟩) same

theorem Piece.relabel_id (piece : Piece) : piece.relabel id = piece := by
  cases piece <;> rfl

theorem pieces_within (text : List Char) (offset : Nat) (afterNumber : Bool) :
    ∀ piece ∈ (Cursor.mk text offset afterNumber).pieces,
      piece.place.hi ≤ offset + Text.size text := by
  induction text, offset, afterNumber using Cursor.reading_induction with
  | done offset afterNumber => simp [Cursor.pieces_end]
  | blank c rest offset afterNumber blank ih =>
      rw [Cursor.pieces_blank blank, Text.size, ← Nat.add_assoc]
      exact ih
  | invalid c rest offset afterNumber invalid ih =>
      rw [Cursor.pieces_invalid invalid, Text.size, ← Nat.add_assoc]
      exact List.forall_mem_cons.mpr ⟨Nat.le_add_right _ _, ih⟩
  | numeral c rest offset afterNumber begins ih =>
      rw [Cursor.pieces_numeral begins, Cursor.size_numeral c rest, ← Nat.add_assoc]
      exact List.forall_mem_cons.mpr ⟨Nat.le_add_right _ _, ih⟩
  | sign c rest offset afterNumber kind single known ih =>
      rw [Cursor.pieces_single single known, Text.size, (ofChar?_eq_some known).2.2.2.2.2,
        ← Nat.add_assoc]
      exact List.forall_mem_cons.mpr ⟨Nat.le_add_right _ _, ih⟩

theorem pieces_room_before (place count : Nat) {pieces : List Piece}
    (before : ∀ piece ∈ pieces, piece.place.lo < place) :
    pieces.map (Piece.relabel (Span.makeRoom place count)) = pieces := by
  have stays : ∀ piece ∈ pieces, piece.relabel (Span.makeRoom place count) = id piece := by
    intro piece member
    have here : ¬ place ≤ piece.place.lo := Nat.not_le_of_lt (before piece member)
    exact (Piece.relabel_congr (if_neg here)).trans piece.relabel_id
  exact (List.map_congr_left stays).trans (List.map_id pieces)

theorem pieces_room_behind (place count : Nat) {pieces : List Piece}
    (behind : ∀ piece ∈ pieces, place ≤ piece.place.lo) :
    pieces.map (Piece.relabel (Span.makeRoom place count)) =
      pieces.map (Piece.relabel (Span.shift count)) :=
  List.map_congr_left fun piece member => Piece.relabel_congr (if_pos (behind piece member))

/-- What is read in a text with a gap is what is read in the text and, between it, in the gap. -/
theorem pieces_inserted (offset : Nat) (afterNumber : Bool)
    (apart : Undivided (Cursor.mk (front ++ back) offset afterNumber).tokens
      (offset + Text.size front))
    (skipped : ∀ c ∈ gap, Skipped c) :
    ∃ before after carried, (Cursor.mk (front ++ back) offset afterNumber).pieces = before ++ after ∧
      (Cursor.mk (front ++ (gap ++ back)) offset afterNumber).pieces =
        before.map (Piece.relabel (Span.makeRoom (offset + Text.size front) (Text.size gap))) ++
          ((Cursor.mk gap (offset + Text.size front) carried).pieces ++
          after.map (Piece.relabel (Span.makeRoom (offset + Text.size front) (Text.size gap)))) := by
  let carried := numberLast afterNumber (Cursor.mk front offset afterNumber).tokens
  refine ⟨(Cursor.mk front offset afterNumber).pieces,
    (Cursor.mk back (offset + Text.size front) carried).pieces, carried,
    Cursor.pieces_cut front back offset afterNumber fun _ => apart, ?_⟩
  have parted := Cursor.pieces_cut front (gap ++ back) offset afterNumber <| by
    intro touches
    cases gap with
    | nil => exact apart
    | cons c gap =>
        rw [Cursor.touchesDigit_gap (List.cons_ne_nil c gap) skipped] at touches
        contradiction
  have early : ∀ piece ∈ (Cursor.mk front offset afterNumber).pieces,
      piece.place.lo < offset + Text.size front := by
    intro piece member
    have filled := (Cursor.pieces_behind _ piece member).2
    have within := pieces_within front offset afterNumber piece member
    omega
  have late : ∀ piece ∈ (Cursor.mk back (offset + Text.size front) carried).pieces,
      offset + Text.size front ≤ piece.place.lo := fun piece member =>
    (Cursor.pieces_behind _ piece member).1
  rw [parted, Cursor.pieces_gap skipped, Cursor.pieces_shift (Text.size gap) back,
    pieces_room_before _ _ early, pieces_room_behind _ _ late]

variable (apart : Undivided (Cursor.ofText (front ++ back)).tokens (Text.size front))
include apart

theorem tokens_inserted (skipped : ∀ c ∈ gap, Skipped c) :
    (Cursor.ofText (front ++ gap ++ back)).tokens = (Cursor.ofText (front ++ back)).tokens.map
      (Spanned.relabel (Span.makeRoom (Text.size front) (Text.size gap))) := by
  obtain ⟨before, after, carried, whole, parted⟩ := pieces_inserted 0 false
    (by rwa [Nat.zero_add]) skipped
  have silent := Cursor.tokens_of_skipped skipped (0 + Text.size front) carried
  rw [Cursor.tokens] at silent
  rw [Cursor.tokens, Cursor.tokens, Cursor.ofText, Cursor.ofText, List.append_assoc, whole, parted,
    List.filterMap_append, List.filterMap_append, silent, List.nil_append, tokens_relabel,
    tokens_relabel, ← List.map_append, ← List.filterMap_append, Nat.zero_add]

theorem scan_inserted (blank : ∀ c ∈ gap, Text.isBlank c = true) (mode : Mode) :
    scan mode (front ++ gap ++ back) =
      relabelScan (Span.makeRoom (Text.size front) (Text.size gap)) (scan mode (front ++ back)) := by
  obtain ⟨before, after, carried, whole, parted⟩ := pieces_inserted 0 false
    (by rwa [Nat.zero_add]) fun c member => skipped_of_isBlank (blank c member)
  apply scan_relabel
  rw [Cursor.ofText, Cursor.ofText, List.append_assoc, whole, parted, Cursor.pieces_of_blank blank,
    List.nil_append, ← List.map_append, Nat.zero_add]

end Room

section Trimming

theorem trim_split (line : List Char) : ∃ trail, (∀ c ∈ trail, Text.isBlank c = true) ∧
    line = line.takeWhile Text.isBlank ++ (Text.trim line ++ trail) := by
  let kept := line.dropWhile Text.isBlank
  refine ⟨(kept.reverse.takeWhile Text.isBlank).reverse, ?_, ?_⟩
  · intro c member
    exact List.all_eq_true.mp List.all_takeWhile c (List.mem_reverse.mp member)
  · rw [Text.trim, ← List.reverse_append, List.takeWhile_append_dropWhile, List.reverse_reverse,
      List.takeWhile_append_dropWhile]

/-- Trimming takes the blanks at the start off the place of every piece. -/
theorem pieces_trimmed (line : List Char) : (Cursor.ofText line).pieces =
    (Cursor.ofText (Text.trim line)).pieces.map
      (Piece.relabel (Span.shift (Text.size (line.takeWhile Text.isBlank)))) := by
  let lead := line.takeWhile Text.isBlank
  obtain ⟨trail, blank, split⟩ := trim_split line
  have blankLead : ∀ c ∈ lead, Text.isBlank c = true := List.all_eq_true.mp List.all_takeWhile
  have stops : Cursor.touchesDigit trail = false := by
    cases trail with
    | nil => rfl
    | cons c trail => exact (skipped_of_isBlank (blank c List.mem_cons_self)).1
  have cut := Cursor.pieces_cut (Text.trim line) trail (0 + Text.size lead) false fun touches =>
    absurd touches (by simp [stops])
  calc (Cursor.ofText line).pieces
    _ = (Cursor.mk (lead ++ (Text.trim line ++ trail)) 0 false).pieces := by rw [← split, Cursor.ofText]
    _ = (Cursor.mk (Text.trim line ++ trail) (0 + Text.size lead) false).pieces := by
      rw [Cursor.pieces_gap fun c member => skipped_of_isBlank (blankLead c member),
        Cursor.pieces_of_blank blankLead, List.nil_append]
    _ = (Cursor.mk (Text.trim line) (0 + Text.size lead) false).pieces := by
      rw [cut, Cursor.pieces_of_blank blank, List.append_nil]
    _ = (Cursor.ofText (Text.trim line)).pieces.map (Piece.relabel (Span.shift (Text.size lead))) :=
      Cursor.pieces_shift (Text.size lead) (Text.trim line) 0 false

end Trimming

/-- At a place in a text that is not inside a token there is room for blanks, and in tolerant mode for
invalid characters as well. Tokens and errors in front of the place stay, and those from there on move
by the bytes that are put in. A line is read and converted as it is without the blanks around it, all
places moved by the bytes of the blanks at its start. -/
theorem insertion_harmless :
    (∀ front back tokens, scan .tolerant (front ++ back) = .ok tokens →
      Undivided tokens (Text.size front) → ∀ gap : List Char,
        ((∀ c ∈ gap, Text.isBlank c = true ∨ Invalid c) →
          scan .tolerant (front ++ gap ++ back) = .ok (tokens.map
            (Spanned.relabel (Span.makeRoom (Text.size front) (Text.size gap))))) ∧
        ((∀ c ∈ gap, Text.isBlank c = true) → ∀ mode, scan mode (front ++ gap ++ back) =
          relabelScan (Span.makeRoom (Text.size front) (Text.size gap)) (scan mode (front ++ back)))) ∧
    ∀ mode line, let lead := Text.size (line.takeWhile Text.isBlank)
      scan mode line = relabelScan (Span.shift lead) (scan mode (Text.trim line)) ∧
        toPostfix mode line =
          relabelPostfix (Span.shift lead) (toPostfix mode (Text.trim line)) := by
  constructor
  · intro front back tokens scanned apart gap
    obtain rfl := scan_eq_ok scanned
    constructor
    · intro foreign
      have skipped : ∀ c ∈ gap, Skipped c := by
        intro c member
        rcases foreign c member with blank | invalid
        · exact skipped_of_isBlank blank
        · exact (invalid_iff.mp invalid).2
      rw [scan_tolerant, tokens_inserted apart skipped]
    · exact scan_inserted apart
  · intro mode line lead
    have scanned : scan mode line = relabelScan (Span.shift lead) (scan mode (Text.trim line)) :=
      scan_relabel (pieces_trimmed line)
    exact ⟨scanned, toPostfix_relabel scanned⟩

/-- The minus in `4-3` is a token of its own, so it may stand apart from the `3`. In front of a line
blanks move a parenthesis that has no partner. -/
theorem insertion_harmless_detached :
    let front := ['4', '-']
    let back := ['3', '$']
    (scan .tolerant (front ++ back) = .ok [⟨.number ['4'], .sized 0 1⟩,
        ⟨.operator (.binary .sub), .sized 1 1⟩, ⟨.number ['3'], .sized 2 1⟩] ∧
      scan .tolerant (front ++ ['é', '\t'] ++ back) = .ok [⟨.number ['4'], .sized 0 1⟩,
        ⟨.operator (.binary .sub), .sized 1 1⟩, ⟨.number ['3'], .sized 5 1⟩]) ∧
    (scan .strict (front ++ back) = .error [⟨.invalidChar '$', .sized 3 1⟩] ∧
      scan .strict (front ++ [' '] ++ back) = .error [⟨.invalidChar '$', .sized 4 1⟩]) ∧
    toPostfix .strict ['4', ')'] = .error (.parens ⟨.unmatched, .sized 1 1⟩) ∧
      toPostfix .strict ['\t', ' ', '4', ')', ' '] = .error (.parens ⟨.unmatched, .sized 3 1⟩) := by
  intro front back
  obtain ⟨inserted, trimmed⟩ := insertion_harmless
  have read : scan .tolerant (front ++ back) = .ok [⟨.number ['4'], .sized 0 1⟩,
      ⟨.operator (.binary .sub), .sized 1 1⟩, ⟨.number ['3'], .sized 2 1⟩] := by decide +kernel
  have room := inserted front back _ read (by decide)
  have reported : scan .strict (front ++ back) = .error [⟨.invalidChar '$', .sized 3 1⟩] := by
    decide +kernel
  have failed : toPostfix .strict ['4', ')'] = .error (.parens ⟨.unmatched, .sized 1 1⟩) := by
    decide +kernel
  have later := (room [' ']).2 (List.forall_mem_singleton.mpr (by decide)) .strict
  have moved := (trimmed .strict ['\t', ' ', '4', ')', ' ']).2
  rw [reported] at later
  rw [show Text.trim ['\t', ' ', '4', ')', ' '] = ['4', ')'] from by decide, failed] at moved
  have foreign : ∀ c ∈ ['é', '\t'], Text.isBlank c = true ∨ Invalid c :=
    List.forall_mem_cons.mpr ⟨by decide, List.forall_mem_singleton.mpr (by decide)⟩
  exact ⟨⟨read, (room ['é', '\t']).1 foreign⟩, ⟨reported, later⟩, failed, moved⟩

end Rpn
