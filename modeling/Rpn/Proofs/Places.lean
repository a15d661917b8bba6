import Rpn.Proofs.Modes
import Rpn.Proofs.Slices
import Rpn.Reader
/-!
A reader never loses its place. The place it has reached and the place where its piece starts fall
between characters, in this order and not behind the end of the text, and what is left to read is the
text behind the place. So no count leaves its range, no look ahead and no piece of text fails, and the
answers are those of a cursor: every answer but the last uses up a character, and behind the end of
the text there is none.
-/
namespace Rpn.Reader

/-- Both places fall between characters of a text that is not too long. -/
structure Placed (reader : Reader) : Prop where
  fits : Text.size reader.text < UInt32.size
  ordered : reader.start ≤ reader.place
  begun : ∃ front back, reader.text = front ++ back ∧ Text.size front = reader.start.toNat
  reached : ∃ front, reader.text = front ++ reader.rest ∧ Text.size front = reader.place.toNat

/-- The reader behind the characters `passed`. -/
def behind (reader : Reader) (passed rest : List Char) : Reader :=
  { reader with rest, place := .ofNat (reader.place.toNat + Text.size passed) }

section Steps
variable {reader : Reader} {passed more rest : List Char}

theorem placed_ofText {mode : Mode} {text : List Char} (accepted : ofText mode text = .ok reader) :
    Placed reader ∧ reader.text = text ∧ reader.mode = mode ∧ reader.rest = text ∧
      reader.place = 0 ∧ reader.last = none := by
  unfold ofText at accepted
  split at accepted
  · rename_i fits
    obtain rfl := Except.ok.inj accepted
    exact ⟨⟨fits, Nat.le_refl 0, ⟨[], text, rfl, rfl⟩, ⟨[], rfl, rfl⟩⟩, rfl, rfl, rfl, rfl, rfl⟩
  · contradiction

theorem Placed.within (placed : Placed reader) (split : reader.rest = passed ++ rest) :
    reader.place.toNat + Text.size passed < UInt32.size := by
  obtain ⟨front, whole, size⟩ := placed.reached
  have fits := placed.fits
  rw [whole, split, Text.size_append, Text.size_append] at fits
  omega

theorem Placed.place_behind (placed : Placed reader) (split : reader.rest = passed ++ rest) :
    (reader.behind passed rest).place.toNat = reader.place.toNat + Text.size passed :=
  UInt32.toNat_ofNat_of_lt' (placed.within split)

theorem Placed.behind (placed : Placed reader) (split : reader.rest = passed ++ rest) :
    Placed (reader.behind passed rest) := by
  have place := placed.place_behind split
  refine ⟨placed.fits, ?_, placed.begun, ?_⟩
  · have ordered := placed.ordered
    rw [UInt32.le_iff_toNat_le] at ordered ⊢
    exact Nat.le_trans ordered (place ▸ Nat.le_add_right _ _)
  · obtain ⟨front, whole, size⟩ := placed.reached
    refine ⟨front ++ passed, ?_, ?_⟩
    · rw [List.append_assoc]
      change reader.text = front ++ (passed ++ rest)
      rw [whole, split]
    · rw [place, Text.size_append, size]

theorem Placed.begin (placed : Placed reader) : Placed reader.beginPiece := by
  obtain ⟨front, whole, size⟩ := placed.reached
  exact ⟨placed.fits, Nat.le_refl _, ⟨front, reader.rest, whole, size⟩, ⟨front, whole, size⟩⟩

theorem behind_nil (reader : Reader) : reader.behind [] reader.rest = reader := by
  have place : UInt32.ofNat (reader.place.toNat + Text.size []) = reader.place :=
    UInt32.ofNat_toNat
  rw [Reader.behind, place]

theorem Placed.behind_behind (placed : Placed reader) (split : reader.rest = passed ++ (more ++ rest)) :
    (reader.behind passed (more ++ rest)).behind more rest = reader.behind (passed ++ more) rest := by
  have total := placed.place_behind split
  rw [Reader.behind, total, Nat.add_assoc, ← Text.size_append]
  rfl

theorem Placed.advance {c : Char} (placed : Placed reader) (filled : reader.rest = c :: rest) :
    reader.advance = .ok (some (c, reader.behind [c] rest)) := by
  have split : reader.rest = [c] ++ rest := filled
  have room : reader.place.toNat + c.utf8Size < UInt32.size := placed.within split
  unfold Reader.advance
  split
  · rename_i empty
    rw [empty] at filled
    contradiction
  · rename_i d left found
    obtain ⟨rfl, rfl⟩ := List.cons.inj (found.symm.trans filled)
    rw [if_pos room]
    rfl

theorem advance_end (ended : reader.rest = []) : reader.advance = .ok none := by
  unfold Reader.advance
  split <;> simp_all

theorem advanceWhile_eq (keep : Char → Bool) (reader : Reader) : reader.advanceWhile keep =
    if !reader.atEnd && keep reader.first then
      match reader.advance with
      | .error fault => .error fault
      | .ok none => .ok reader
      | .ok (some (_, next)) => next.advanceWhile keep
    else .ok reader := by
  rw [Reader.advanceWhile]
  cases !reader.atEnd && keep reader.first with
  | false => rfl
  | true =>
      simp only [if_true]
      split <;> rename_i moved <;> rw [moved]

/-- A run of characters is passed as a whole. -/
theorem Placed.advanceWhile (placed : Placed reader) (keep : Char → Bool) :
    reader.advanceWhile keep =
      .ok (reader.behind (reader.rest.takeWhile keep) (reader.rest.dropWhile keep)) := by
  have stay := behind_nil reader
  induction left : reader.rest generalizing reader with
  | nil =>
      rw [left] at stay
      have ended : reader.atEnd = true := by simp [atEnd, left]
      simp [advanceWhile_eq, ended, stay]
  | cons c rest ih =>
      have first : reader.first = c := by simp [Reader.first, left]
      have filled : reader.atEnd = false := by simp [atEnd, left]
      rw [advanceWhile_eq, first, filled]
      cases kept : keep c with
      | false =>
          rw [left] at stay
          simp [kept, stay]
      | true =>
          have one : reader.rest = [c] ++ rest := left
          have split : reader.rest = [c] ++ (rest.takeWhile keep ++ rest.dropWhile keep) := by
            rw [List.takeWhile_append_dropWhile, one]
          have joined := placed.behind_behind split
          rw [List.takeWhile_append_dropWhile] at joined
          have later := ih (placed.behind one) (behind_nil _) rfl
          simp only [placed.advance left, Bool.not_false, Bool.and_self, if_true, later, joined,
            List.takeWhile_cons, List.dropWhile_cons, kept]
          rfl

end Steps

section Pieces
variable {reader : Reader} {c : Char} {passed rest : List Char}

/-- Where a piece starts at the place of the reader, the text of the piece is what was passed. -/
theorem Placed.lexeme_behind (placed : Placed reader) (begun : reader.start = reader.place)
    (split : reader.rest = passed ++ rest) :
    (reader.behind passed rest).lexeme = .ok passed := by
  have place := placed.place_behind split
  have start : (reader.behind passed rest).start.toNat = reader.place.toNat := congrArg _ begun
  have ordered : (reader.behind passed rest).start.toNat ≤ (reader.behind passed rest).place.toNat := by
    omega
  obtain ⟨front, whole, size⟩ := placed.reached
  have sliced : (Span.mk _ _ ordered).slice? (reader.behind passed rest).text = some passed := by
    refine Span.slice?_eq_some_iff.mpr ⟨front, rest, ?_, ?_, ?_⟩
    · rw [List.append_assoc, ← split]
      exact whole
    · exact size.trans start.symm
    · have length : (reader.behind passed rest).place.toNat -
          (reader.behind passed rest).start.toNat = Text.size passed := by omega
      exact length.symm
  rw [Reader.lexeme, dif_pos ordered]
  simp only [sliced]

theorem Placed.span_behind (placed : Placed reader) (begun : reader.start = reader.place)
    (split : reader.rest = passed ++ rest) :
    (reader.behind passed rest).span = .sized reader.place.toNat (Text.size passed) := by
  have place := placed.place_behind split
  have start : (reader.behind passed rest).start.toNat = reader.place.toNat := congrArg _ begun
  rw [Reader.span, place, start]
  ext <;> simp [Span.ofBounds, Span.sized]

theorem Placed.ahead (placed : Placed reader) :
    reader.ahead = .ok reader.first := by
  obtain ⟨front, whole, size⟩ := placed.reached
  have dropped : Text.dropBytes? reader.place.toNat reader.text = some reader.rest := by
    rw [← size, whole]
    exact Text.dropBytes?_append front reader.rest
  rw [Reader.ahead, dropped]
  rfl

-- Neither the end of the text nor the mark that stands for it is a digit.
theorem first_isDigit (reader : Reader) :
    reader.first.isDigit = Cursor.touchesDigit reader.rest := by
  rw [Reader.first]
  cases reader.rest <;> rfl

theorem Placed.numeral (placed : Placed reader) (begun : reader.start = reader.place)
    (filled : reader.rest = c :: rest) :
    (reader.behind [c] rest).numeral =
      .ok (some (.number (c :: rest.takeWhile Char.isDigit)),
        reader.behind (c :: rest.takeWhile Char.isDigit) (rest.dropWhile Char.isDigit)) := by
  have one : reader.rest = [c] ++ rest := filled
  have split : reader.rest = [c] ++ (rest.takeWhile Char.isDigit ++ rest.dropWhile Char.isDigit) := by
    rw [List.takeWhile_append_dropWhile, one]
  have joined := placed.behind_behind split
  rw [List.takeWhile_append_dropWhile] at joined
  have digits := (placed.behind one).advanceWhile Char.isDigit
  have left : (reader.behind [c] rest).rest = rest := rfl
  rw [left, joined] at digits
  rw [← List.append_assoc] at split
  have lexeme := placed.lexeme_behind begun split
  rw [Reader.numeral, digits]
  simp only [lexeme]
  rfl

/-- The kind of a piece is settled as a cursor settles it. -/
theorem Placed.kind? (placed : Placed reader) (begun : reader.start = reader.place)
    (filled : reader.rest = c :: rest) :
    (reader.behind [c] rest).kind? c = .ok
      (if Cursor.beginsNumeral (reader.last.any Kind.isNumber) c rest then
        (some (.number (c :: rest.takeWhile Char.isDigit)),
          reader.behind (c :: rest.takeWhile Char.isDigit) (rest.dropWhile Char.isDigit))
      else (Kind.ofChar? c, reader.behind [c] rest)) := by
  have one : reader.rest = [c] ++ rest := filled
  have numeral := placed.numeral begun filled
  rw [Reader.kind?, Cursor.beginsNumeral]
  cases digit : c.isDigit with
  | true => simp [numeral]
  | false =>
      cases minus : c == '-' with
      | false => simp
      | true =>
          have ahead : (reader.behind [c] rest).minusBeginsNumeral =
              .ok (Cursor.touchesDigit rest && !reader.last.any Kind.isNumber) := by
            rw [minusBeginsNumeral, (placed.behind one).ahead, Except.map, first_isDigit]
            rfl
          rw [ahead]
          cases Cursor.touchesDigit rest <;> cases reader.last.any Kind.isNumber <;> simp [numeral]

end Pieces

section Turns
variable {reader : Reader}

def cursor (reader : Reader) : Cursor :=
  { rest := reader.rest, offset := reader.place.toNat,
    afterNumber := reader.last.any Kind.isNumber }

/-- A reader of the same text in the same mode that has not lost its place. -/
structure Follows (reader later : Reader) : Prop where
  placed : Placed later
  text : later.text = reader.text
  mode : later.mode = reader.mode

theorem Follows.trans {later last : Reader} (follows : Follows reader later)
    (further : Follows later last) : Follows reader last :=
  ⟨further.placed, further.text.trans follows.text, further.mode.trans follows.mode⟩

def Turn.ofItem? : Option Item → Turn
  | none => .again
  | some item => .answer (some item)

theorem Placed.token {later : Reader} (placed : Placed later) (kind : Kind) :
    Placed { later with last := some kind } :=
  ⟨placed.fits, placed.ordered, placed.begun, placed.reached⟩

theorem report_token (reader : Reader) (c : Char) (kind : Kind) :
    reader.report c (some kind) =
      (.answer (some (.ok ⟨kind, reader.span⟩)), { reader with last := some kind }) := rfl

-- One piece, from its first character to the report on it.
theorem Placed.report {c : Char} {rest : List Char} (placed : Placed reader)
    (begun : reader.start = reader.place) (filled : reader.rest = c :: rest) :
    ∃ later, Follows reader later ∧
      ((reader.behind [c] rest).kind? c).map (fun (kind, behind) => behind.report c kind) =
        .ok (Turn.ofItem? ((reader.cursor.readFrom c rest).1.item? reader.mode), later) ∧
      later.cursor = (reader.cursor.readFrom c rest).2 := by
  have one : reader.rest = [c] ++ rest := filled
  have after := placed.behind one
  have span := placed.span_behind begun one
  have place : (reader.behind [c] rest).place.toNat = reader.place.toNat + c.utf8Size :=
    placed.place_behind one
  have size : Text.size [c] = c.utf8Size := rfl
  rw [size] at span
  have token : reader.cursor.afterNumber = reader.last.any Kind.isNumber := rfl
  rw [placed.kind? begun filled, Except.map, Cursor.readFrom, token]
  cases begins : Cursor.beginsNumeral (reader.last.any Kind.isNumber) c rest with
  | true =>
      have split : reader.rest = (c :: rest.takeWhile Char.isDigit) ++ rest.dropWhile Char.isDigit := by
        rw [List.cons_append, List.takeWhile_append_dropWhile, filled]
      refine ⟨_, ⟨(placed.behind split).token (.number (c :: rest.takeWhile Char.isDigit)), rfl, rfl⟩,
        ?_, ?_⟩
      · simp only [if_true, report_token, placed.span_behind begun split]
        rfl
      · simp only [cursor, placed.place_behind split]
        rfl
  | false =>
      cases known : Kind.ofChar? c with
      | some kind =>
          have plain : kind.isNumber = false := (ofChar?_eq_some known).2.1
          refine ⟨_, ⟨after.token kind, rfl, rfl⟩, ?_, ?_⟩
          · simp only [Bool.false_eq_true, if_false, report_token, span]
            rfl
          · simp only [cursor, place, Option.any_some, plain]
            rfl
      | none =>
          refine ⟨_, ⟨after, rfl, rfl⟩, ?_, ?_⟩
          · have kept : (reader.behind [c] rest).mode = reader.mode := rfl
            simp only [Bool.false_eq_true, if_false, Reader.report, kept, span]
            cases reader.mode <;> rfl
          · simp only [cursor, place]
            rfl

/-- A turn of the reader takes one piece, as a cursor does. -/
theorem Placed.turn (placed : Placed reader) :
    ∃ later, Follows reader later ∧
      match reader.cursor.read? with
      | none => reader.turn = .ok (.answer none, later) ∧ later.rest = []
      | some (piece, cursor) =>
        reader.turn = .ok (Turn.ofItem? (piece.item? reader.mode), later) ∧
          later.cursor = cursor := by
  have split : reader.rest =
      reader.rest.takeWhile Text.isBlank ++ reader.rest.dropWhile Text.isBlank :=
    List.takeWhile_append_dropWhile.symm
  have skipped := placed.advanceWhile Text.isBlank
  have place := placed.place_behind split
  have begun := (placed.behind split).begin
  generalize blankless : (reader.behind (reader.rest.takeWhile Text.isBlank)
    (reader.rest.dropWhile Text.isBlank)).beginPiece = start at begun
  have skip : reader.cursor.skipBlank = start.cursor := by
    rw [← blankless]
    simp only [cursor, beginPiece, place]
    rfl
  have text : start.text = reader.text := blankless ▸ rfl
  have mode : start.mode = reader.mode := blankless ▸ rfl
  have fresh : start.start = start.place := blankless ▸ rfl
  have rest : start.cursor.rest = start.rest := rfl
  rw [Reader.turn, skipped]
  simp only [blankless]
  cases left : start.rest with
  | nil =>
      have taken : reader.cursor.read? = none := by rw [Cursor.read?, skip, rest, left]
      rw [taken, advance_end left]
      exact ⟨start, ⟨begun, text, mode⟩, rfl, left⟩
  | cons c more =>
      have taken : reader.cursor.read? = some (start.cursor.readFrom c more) := by
        rw [Cursor.read?, skip, rest, left]
      obtain ⟨later, follows, reported, behind⟩ := begun.report fresh left
      rw [taken, begun.advance left]
      generalize start.cursor.readFrom c more = read at reported behind
      obtain ⟨piece, cursor⟩ := read
      refine ⟨later, Follows.trans ⟨begun, text, mode⟩ follows, ?_, behind⟩
      simp only
      rw [reported, mode]

end Turns

section Answers
variable {reader : Reader}

def items (reader : Reader) : List Item := reader.cursor.items reader.mode

theorem next_eq (reader : Reader) : reader.next =
    match reader.turn with
    | .error fault => .error fault
    | .ok (.answer item, behind) => .ok (item, behind)
    | .ok (.again, behind) => behind.next := by
  rw [Reader.next]
  split <;> rename_i turned <;> rw [turned]

theorem items_end (ended : reader.rest = []) : reader.items = [] := by
  rw [items, Cursor.items_pieces, cursor, ended, Cursor.pieces_end]
  rfl

/-- A request to the reader is a request to its cursor, and without an answer nothing is left. -/
theorem Placed.next (placed : Placed reader) :
    ∃ item later, Follows reader later ∧ reader.next = .ok (item, later) ∧
      reader.cursor.next? reader.mode = item.map (fun item => (item, later.cursor)) ∧
      (item = none → later.rest = []) := by
  induction length : reader.rest.length using Nat.strongRecOn generalizing reader with
  | ind count ih =>
      obtain ⟨later, follows, turned⟩ := placed.turn
      rw [next_eq, Cursor.next?_eq]
      cases taken : reader.cursor.read? with
      | none =>
          simp only [taken] at turned
          obtain ⟨answered, ended⟩ := turned
          rw [answered]
          exact ⟨none, later, follows, rfl, rfl, fun _ => ended⟩
      | some result =>
          obtain ⟨piece, cursor⟩ := result
          simp only [taken] at turned
          obtain ⟨answered, behind⟩ := turned
          rw [answered, ← behind]
          cases reported : piece.item? reader.mode with
          | some item => exact ⟨some item, later, follows, rfl, by simp only [reported]; rfl, nofun⟩
          | none =>
              have shorter : later.rest.length < count := by
                have less := Cursor.read?_shortens taken
                rw [← behind] at less
                exact length ▸ less
              obtain ⟨item, last, further, asked, given, ended⟩ := ih _ shorter follows.placed rfl
              rw [follows.mode] at given
              refine ⟨item, last, follows.trans further, asked, ?_, ended⟩
              simp only [reported]
              exact given

theorem Placed.items (placed : Placed reader) : ∃ later, Follows reader later ∧
    reader.next = .ok (reader.items.head?, later) ∧ later.items = reader.items.tail := by
  obtain ⟨item, later, follows, asked, given, ended⟩ := placed.next
  cases item with
  | none =>
      have none : reader.items = [] := by rw [Reader.items, Cursor.items_eq, given]; rfl
      rw [none]
      exact ⟨later, follows, asked, items_end (ended rfl)⟩
  | some item =>
      have more : reader.items = item :: later.items := by
        rw [Reader.items, Cursor.items_eq, given, Reader.items, follows.mode]
        rfl
      rw [more]
      exact ⟨later, follows, asked, rfl⟩

-- An answer that is a token or an error uses up a character.
theorem next_passes {later : Reader} {item : Option Item} (asked : reader.next = .ok (item, later)) :
    item.isSome.toNat + later.rest.length ≤ reader.rest.length := by
  fun_induction Reader.next reader with
  | case1 reader fault stuck => contradiction
  | case2 reader answer behind turned =>
      simp only [Except.ok.injEq, Prod.mk.injEq] at asked
      obtain ⟨rfl, rfl⟩ := asked
      rcases turn_shortens turned with ⟨ended, empty⟩ | shorter
      · obtain rfl : answer = none := by simpa using ended
        simp [empty]
      · have one := Bool.toNat_le answer.isSome
        omega
  | case3 reader behind turned ih =>
      have passed := ih asked
      rcases turn_shortens turned with ⟨ended, _⟩ | shorter
      · contradiction
      · omega

theorem Placed.answers (placed : Placed reader) (count : Nat) :
    ∃ last, Follows reader last ∧
      reader.answers count = .ok ((List.range count).map fun i => reader.items[i]?, last) ∧
      last.items = reader.items.drop count := by
  induction count with
  | zero => exact ⟨reader, ⟨placed, rfl, rfl⟩, rfl, rfl⟩
  | succ count ih =>
      obtain ⟨behind, follows, answered, left⟩ := ih
      obtain ⟨last, further, asked, left'⟩ := follows.placed.items
      refine ⟨last, follows.trans further, ?_, ?_⟩
      · rw [Reader.answers, answered]
        simp only [asked, Except.map, left, List.head?_drop, List.range_succ, List.map_append,
          List.map_singleton]
      · rw [left', left, List.tail_drop]

theorem answers_pass {last : Reader} {answered : List (Option Item)} {count : Nat}
    (done : reader.answers count = .ok (answered, last)) :
    answered.countP Option.isSome + last.rest.length ≤ reader.rest.length := by
  induction count generalizing answered last with
  | zero =>
      simp only [Reader.answers, Except.ok.injEq, Prod.mk.injEq] at done
      obtain ⟨rfl, rfl⟩ := done
      simp
  | succ count ih =>
      rw [Reader.answers] at done
      split at done
      · contradiction
      · rename_i earlier behind before
        cases asked : behind.next with
        | error fault => simp [asked, Except.map] at done
        | ok result =>
            obtain ⟨item, final⟩ := result
            simp only [asked, Except.map, Except.ok.injEq, Prod.mk.injEq] at done
            obtain ⟨rfl, rfl⟩ := done
            have earlier := ih before
            have now := next_passes asked
            rw [List.countP_append, List.countP_singleton]
            cases item <;> simp at now ⊢ <;> omega

end Answers

/-- However often a reader of a text of fewer than 2^32 bytes is asked, it has an answer and no fault
comes up. Its two places are in order, fall between characters and do not pass the end, and what it
has left is the text behind its place. An answer that is a token or an error uses up a character; so
there are no more of them than characters, and after the first answer without one there is none. The
answers are those of a cursor. -/
theorem reader_keeps_place (mode : Mode) (text : List Char) (reader : Reader)
    (accepted : ofText mode text = .ok reader) (count : Nat) :
    reader.cursor = Cursor.ofText text ∧
    ∃ answered last, reader.answers count = .ok (answered, last) ∧
      last.start ≤ last.place ∧ last.place.toNat ≤ Text.size text ∧
      (Text.dropBytes? last.start.toNat text).isSome ∧
      Text.dropBytes? last.place.toNat text = some last.rest ∧
      (∃ item later, last.next = .ok (item, later) ∧
        last.cursor.next? mode = item.map (fun item => (item, later.cursor)) ∧
        (item.isSome → later.rest.length < last.rest.length)) ∧
      answered.countP Option.isSome ≤ text.length ∧
      (∀ i j, i ≤ j → j < count → answered[i]? = some none → answered[j]? = some none) ∧
      answered = (List.range count).map fun i => ((Cursor.ofText text).items mode)[i]? := by
  obtain ⟨placed, same, kept, rest, place, token⟩ := placed_ofText accepted
  obtain ⟨last, follows, answered, _⟩ := placed.answers count
  obtain ⟨front, whole, reached⟩ := follows.placed.reached
  obtain ⟨before, after, split, begun⟩ := follows.placed.begun
  have text' := follows.text.trans same
  rw [text'] at whole split
  have whole' : reader.cursor = Cursor.ofText text := by
    rw [cursor, rest, place, token]
    rfl
  refine ⟨whole', _, last, answered, follows.placed.ordered, ?_, ?_, ?_, ?_, ?_, ?_, ?_⟩
  · rw [← reached, whole, Text.size_append]
    omega
  · rw [← begun, split, Text.dropBytes?_append]
    rfl
  · rw [← reached, ← Text.dropBytes?_append front last.rest, ← whole]
  · obtain ⟨item, later, _, asked, given, _⟩ := follows.placed.next
    rw [follows.mode, kept] at given
    refine ⟨item, later, asked, given, fun answered => ?_⟩
    have passed := next_passes asked
    rw [answered, Bool.toNat_true] at passed
    omega
  · have passed := answers_pass answered
    rw [rest] at passed
    omega
  · intro i j before within none
    have short : i < count := Nat.lt_of_le_of_lt before within
    rw [List.getElem?_map, List.getElem?_range within, Option.map_some, Option.some.injEq,
      List.getElem?_eq_none_iff]
    rw [List.getElem?_map, List.getElem?_range short, Option.map_some, Option.some.injEq,
      List.getElem?_eq_none_iff] at none
    omega
  · rw [Reader.items, whole', kept]

/-- Between a wide letter and a digit stands the character that also marks the end of a text. -/
theorem reader_keeps_place_marked :
    let text := ['é', '-', endMark, '7']
    let start : Reader := { text, rest := text, mode := .strict }
    ofText .strict text = .ok start ∧
    start.cursor = Cursor.ofText text ∧
    ∃ answered last, start.answers 4 = .ok (answered, last) ∧
      last.start ≤ last.place ∧ last.place.toNat ≤ Text.size text ∧
      (Text.dropBytes? last.start.toNat text).isSome ∧
      Text.dropBytes? last.place.toNat text = some last.rest ∧
      (∃ item later, last.next = .ok (item, later) ∧
        last.cursor.next? .strict = item.map (fun item => (item, later.cursor)) ∧
        (item.isSome → later.rest.length < last.rest.length)) ∧
      answered.countP Option.isSome ≤ text.length ∧
      (∀ i j, i ≤ j → j < 4 → answered[i]? = some none → answered[j]? = some none) ∧
      answered = (List.range 4).map fun i => ((Cursor.ofText text).items .strict)[i]? := by
  intro text start
  have accepted : ofText .strict text = .ok start := if_pos (by decide)
  exact ⟨accepted, reader_keeps_place .strict text start accepted 4⟩

end Rpn.Reader
