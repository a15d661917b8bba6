import Rpn.Proofs.Reading
import Rpn.Proofs.Slices
/-!
What the tokens of a text are, said without reading it from left to right. A tokenization puts every
token where its characters stand, leaves out only characters that are no part of any token, takes
numbers as long as they go, and gives a minus to the digits it touches unless a number stands before
it. Every text has one tokenization, the one that reading it gives.
-/
namespace Rpn

/-- A run of digits, which a minus may precede. -/
def Numeral (lexeme : List Char) : Prop :=
  ∃ digits, digits ≠ [] ∧ (∀ c ∈ digits, c.isDigit = true) ∧
    (lexeme = digits ∨ lexeme = '-' :: digits)

def Lexical : Kind → Prop
  | .number lexeme => Numeral lexeme
  | kind => ∃ c, kind.lexeme = [c] ∧ Kind.ofChar? c = some kind

/-- The last token that ends in front of the place or at it. -/
def tokenBefore (tokens : List Token) (place : Nat) : Option Token :=
  (tokens.filter fun token => token.span.hi ≤ place).getLast?

structure Tokenizes (text : List Char) (tokens : List Token) : Prop where
  nonempty : ∀ token ∈ tokens, token.span.lo < token.span.hi
  bounded : ∀ token ∈ tokens, token.span.hi ≤ Text.size text
  ordered : tokens.Pairwise fun first later => first.span.hi ≤ later.span.lo
  sliced : ∀ token ∈ tokens, token.span.slice? text = some token.value.lexeme
  lexical : ∀ token ∈ tokens, Lexical token.value
  gaps : ∀ place c, Text.CharAt text place c →
    (∀ token ∈ tokens, ¬ (token.span.lo ≤ place ∧ place < token.span.hi)) →
    Text.isBlank c = true ∨ (c.isDigit = false ∧ Kind.ofChar? c = none)
  maximal : ∀ token ∈ tokens, token.value.isNumber = true →
    ∀ c, Text.CharAt text token.span.hi c → c.isDigit = false
  minus : ∀ place digit, Text.CharAt text place '-' → Text.CharAt text (place + 1) digit →
    digit.isDigit = true →
    ((∃ token ∈ tokens, token.value.isNumber = true ∧ token.span.lo = place) ↔
      ∀ previous, tokenBefore tokens place = some previous → previous.value.isNumber = false)

/-! The same for what is left of a text, `offset` bytes of it and perhaps a number being read. -/
section Remainders

def numberBefore (afterNumber : Bool) (tokens : List Token) (place : Nat) : Bool :=
  match tokenBefore tokens place with
  | none => afterNumber
  | some previous => previous.value.isNumber

structure Fits (offset : Nat) (afterNumber : Bool) (text : List Char) (tokens : List Token) : Prop where
  placed : ∀ token ∈ tokens, ∃ front back, text = front ++ (token.value.lexeme ++ back) ∧
    token.span = .sized (offset + Text.size front) (Text.size token.value.lexeme)
  ordered : tokens.Pairwise fun first later => first.span.hi ≤ later.span.lo
  lexical : ∀ token ∈ tokens, Lexical token.value
  gaps : ∀ front c back, text = front ++ c :: back →
    (∀ token ∈ tokens, ¬ (token.span.lo ≤ offset + Text.size front ∧
      offset + Text.size front < token.span.hi)) → Skipped c
  maximal : ∀ token ∈ tokens, token.value.isNumber = true →
    ∀ front c back, text = front ++ c :: back → token.span.hi = offset + Text.size front →
      c.isDigit = false
  minus : ∀ front digit back, text = front ++ '-' :: digit :: back → digit.isDigit = true →
    ((∃ token ∈ tokens, token.value.isNumber = true ∧ token.span.lo = offset + Text.size front) ↔
      numberBefore afterNumber tokens (offset + Text.size front) = false)

variable {kind : Kind} {text back : List Char} {c : Char} {tokens : List Token} {offset : Nat}
  {afterNumber : Bool}

theorem Lexical.ne_nil (lexical : Lexical kind) : kind.lexeme ≠ [] := by
  cases kind with
  | number lexeme =>
      obtain ⟨digits, filled, _, rfl | rfl⟩ := lexical
      · exact filled
      · exact List.cons_ne_nil _ _
  | operator op => exact List.cons_ne_nil _ _
  | paren side => exact List.cons_ne_nil _ _

theorem Lexical.not_skipped (lexical : Lexical kind) {rest : List Char}
    (first : kind.lexeme = c :: rest) : ¬ Skipped c := by
  rintro ⟨plain, unknown⟩
  cases kind with
  | number lexeme =>
      obtain ⟨digits, filled, digit, rfl | rfl⟩ := lexical
      · obtain rfl : lexeme = c :: rest := first
        have := digit c List.mem_cons_self
        rw [plain] at this
        contradiction
      · obtain rfl : '-' = c := (List.cons.inj first).1
        exact absurd unknown (by decide)
  | operator op =>
      obtain ⟨known, single, found⟩ := lexical
      rw [single] at first
      rw [(List.cons.inj first).1, unknown] at found
      contradiction
  | paren side =>
      obtain ⟨known, single, found⟩ := lexical
      rw [single] at first
      rw [(List.cons.inj first).1, unknown] at found
      contradiction

-- A minus inside a lexeme is its first character.
theorem Lexical.minus_first (lexical : Lexical kind) {front later : List Char}
    (split : kind.lexeme = front ++ '-' :: later) : front = [] := by
  cases front with
  | nil => rfl
  | cons first front =>
      have single : ∀ known, kind.lexeme = [known] → first :: front = [] := by
        intro known same
        rw [same] at split
        have length := congrArg List.length split
        simp at length
      cases kind with
      | operator op => exact single _ rfl
      | paren side => exact single _ rfl
      | number lexeme =>
          obtain ⟨digits, filled, digit, rfl | rfl⟩ := lexical
          · have bad := digit '-' (by rw [show lexeme = _ from split]; simp)
            exact absurd bad (by decide)
          · have tail : digits = front ++ '-' :: later := (List.cons.inj split).2
            have bad := digit '-' (by rw [tail]; simp)
            exact absurd bad (by decide)

theorem Fits.token_bounds (fits : Fits offset afterNumber text tokens) {token : Token}
    (member : token ∈ tokens) : offset ≤ token.span.lo ∧ token.span.lo < token.span.hi := by
  obtain ⟨front, later, _, span⟩ := fits.placed token member
  have filled := Text.size_pos (fits.lexical token member).ne_nil
  rw [span]
  exact ⟨Nat.le_add_right _ _, Nat.lt_add_of_pos_right filled⟩

theorem fits_end (fits : Fits offset afterNumber [] tokens) : tokens = [] := by
  cases tokens with
  | nil => rfl
  | cons token rest =>
      obtain ⟨front, later, same, _⟩ := fits.placed token List.mem_cons_self
      have empty := List.append_eq_nil_iff.mp (List.append_eq_nil_iff.mp same.symm).2
      exact absurd empty.1 (fits.lexical token List.mem_cons_self).ne_nil

theorem fits_nil (offset : Nat) (afterNumber : Bool) : Fits offset afterNumber [] [] where
  placed := by simp
  ordered := .nil
  lexical := by simp
  gaps := by simp
  maximal := by simp
  minus := by simp

theorem place_cons (offset : Nat) (c : Char) (front : List Char) :
    offset + Text.size (c :: front) = offset + c.utf8Size + Text.size front := by
  simp only [Text.size, Nat.add_assoc]

theorem place_append (offset : Nat) (front middle : List Char) :
    offset + Text.size (front ++ middle) = offset + Text.size front + Text.size middle := by
  rw [Text.size_append, Nat.add_assoc]

/-! A character that is no part of a token moves everything behind it and changes nothing else. -/

theorem Fits.behind_skipped (fits : Fits offset afterNumber (c :: text) tokens)
    (skipped : Skipped c) : Fits (offset + c.utf8Size) afterNumber text tokens := by
  constructor
  · intro token member
    obtain ⟨front, later, same, span⟩ := fits.placed token member
    cases front with
    | nil =>
        have lexical := fits.lexical token member
        cases known : token.value.lexeme with
        | nil => exact absurd known lexical.ne_nil
        | cons first rest =>
            rw [known] at same
            obtain rfl : c = first := (List.cons.inj same).1
            exact absurd skipped (lexical.not_skipped known)
    | cons first front =>
        obtain ⟨rfl, tail⟩ := List.cons.inj same
        exact ⟨front, later, tail, by rw [span, place_cons]⟩
  · exact fits.ordered
  · exact fits.lexical
  · intro front d later same uncovered
    apply fits.gaps (c :: front) d later (by simp [same])
    simpa only [place_cons] using uncovered
  · intro token member number front d later same finish
    apply fits.maximal token member number (c :: front) d later (by simp [same])
    rw [finish, place_cons]
  · intro front digit later same isDigit
    have rule := fits.minus (c :: front) digit later (by simp [same]) isDigit
    simpa only [place_cons] using rule

theorem Fits.before_skipped (fits : Fits (offset + c.utf8Size) afterNumber text tokens)
    (skipped : Skipped c) : Fits offset afterNumber (c :: text) tokens := by
  constructor
  · intro token member
    obtain ⟨front, later, same, span⟩ := fits.placed token member
    exact ⟨c :: front, later, by simp [same], by rw [span, place_cons]⟩
  · exact fits.ordered
  · exact fits.lexical
  · intro front d later same uncovered
    cases front with
    | nil =>
        obtain rfl : c = d := (List.cons.inj same).1
        exact skipped
    | cons first front =>
        obtain ⟨rfl, tail⟩ := List.cons.inj same
        apply fits.gaps front d later tail
        simpa only [place_cons] using uncovered
  · intro token member number front d later same finish
    have bounds := fits.token_bounds member
    cases front with
    | nil =>
        simp only [Text.size] at finish
        omega
    | cons first front =>
        obtain ⟨rfl, tail⟩ := List.cons.inj same
        apply fits.maximal token member number front d later tail
        rw [finish, place_cons]
  · intro front digit later same isDigit
    cases front with
    | nil =>
        obtain rfl : c = '-' := (List.cons.inj same).1
        exact absurd skipped.2 (by decide)
    | cons first front =>
        obtain ⟨rfl, tail⟩ := List.cons.inj same
        simpa only [place_cons] using fits.minus front digit later tail isDigit

theorem numberBefore_start {place : Nat} (later : ∀ token ∈ tokens, place < token.span.hi) :
    numberBefore afterNumber tokens place = afterNumber := by
  have empty : (tokens.filter fun token => token.span.hi ≤ place) = [] := by
    rw [List.filter_eq_nil_iff]
    intro token member
    simp [later token member]
  rw [numberBefore, tokenBefore, empty]
  rfl

/-- The token `kind` may stand at the start of a text, in front of `back`. -/
structure Begins (afterNumber : Bool) (kind : Kind) (back : List Char) : Prop where
  lexical : Lexical kind
  maximal : kind.isNumber = true → Cursor.touchesDigit back = false
  minus : ∀ digit later, kind.lexeme ++ back = '-' :: digit :: later → digit.isDigit = true →
    (kind.isNumber = true ↔ afterNumber = false)

def tokenAt (kind : Kind) (offset : Nat) : Token := ⟨kind, .sized offset (Text.size kind.lexeme)⟩

-- What a token at the start of a text tells about the places behind it, and about its own.
theorem numberBefore_behind (more : Nat) :
    numberBefore afterNumber (tokenAt kind offset :: tokens)
        (offset + Text.size kind.lexeme + more) =
      numberBefore kind.isNumber tokens (offset + Text.size kind.lexeme + more) := by
  have before : (tokenAt kind offset).span.hi ≤ offset + Text.size kind.lexeme + more :=
    Nat.le_add_right _ _
  rw [numberBefore, numberBefore, tokenBefore, tokenBefore, List.filter_cons_of_pos (by simp [before]),
    List.getLast?_cons]
  cases (tokens.filter fun token =>
    token.span.hi ≤ offset + Text.size kind.lexeme + more).getLast? <;> rfl

theorem startsNumber_behind (filled : 0 < Text.size kind.lexeme) (more : Nat) :
    (∃ token ∈ tokenAt kind offset :: tokens, token.value.isNumber = true ∧
        token.span.lo = offset + Text.size kind.lexeme + more) ↔
      ∃ token ∈ tokens, token.value.isNumber = true ∧
        token.span.lo = offset + Text.size kind.lexeme + more := by
  constructor
  · rintro ⟨token, member, number, place⟩
    rcases List.mem_cons.mp member with rfl | member
    · have start : offset = offset + Text.size kind.lexeme + more := place
      omega
    · exact ⟨token, member, number, place⟩
  · rintro ⟨token, member, found⟩
    exact ⟨token, List.mem_cons_of_mem _ member, found⟩

theorem startsNumber_start (apart : ∀ token ∈ tokens, offset < token.span.lo) :
    (∃ token ∈ tokenAt kind offset :: tokens, token.value.isNumber = true ∧
        token.span.lo = offset) ↔ kind.isNumber = true := by
  constructor
  · rintro ⟨token, member, number, place⟩
    rcases List.mem_cons.mp member with rfl | member
    · exact number
    · exact absurd place (Nat.ne_of_gt (apart token member))
  · intro number
    exact ⟨_, List.mem_cons_self, number, rfl⟩

theorem minus_rule_start (filled : 0 < Text.size kind.lexeme)
    (apart : ∀ token ∈ tokens, offset < token.span.lo) :
    ((∃ token ∈ tokenAt kind offset :: tokens, token.value.isNumber = true ∧
        token.span.lo = offset) ↔
      numberBefore afterNumber (tokenAt kind offset :: tokens) offset = false) ↔
    (kind.isNumber = true ↔ afterNumber = false) := by
  have later : ∀ token ∈ tokenAt kind offset :: tokens, offset < token.span.hi := by
    intro token member
    rcases List.mem_cons.mp member with rfl | member
    · exact Nat.lt_add_of_pos_right filled
    · exact Nat.lt_of_lt_of_le (apart token member) token.span.ordered
  rw [startsNumber_start apart, numberBefore_start later]

theorem minus_rule_behind (filled : 0 < Text.size kind.lexeme) (more : Nat) :
    ((∃ token ∈ tokenAt kind offset :: tokens, token.value.isNumber = true ∧
        token.span.lo = offset + Text.size kind.lexeme + more) ↔
      numberBefore afterNumber (tokenAt kind offset :: tokens)
        (offset + Text.size kind.lexeme + more) = false) ↔
    ((∃ token ∈ tokens, token.value.isNumber = true ∧
        token.span.lo = offset + Text.size kind.lexeme + more) ↔
      numberBefore kind.isNumber tokens (offset + Text.size kind.lexeme + more) = false) := by
  rw [startsNumber_behind filled, numberBefore_behind]

theorem Fits.begins (fits : Fits offset afterNumber (kind.lexeme ++ back)
    (tokenAt kind offset :: tokens)) : Begins afterNumber kind back := by
  have head := fits.token_bounds List.mem_cons_self
  constructor
  · exact fits.lexical _ List.mem_cons_self
  · intro number
    cases back with
    | nil => rfl
    | cons c back => exact fits.maximal _ List.mem_cons_self number kind.lexeme c back rfl rfl
  · intro digit later same isDigit
    have apart : ∀ token ∈ tokens, offset < token.span.lo := by
      intro token member
      exact Nat.lt_of_lt_of_le head.2 ((List.pairwise_cons.mp fits.ordered).1 token member)
    have filled := Text.size_pos (fits.lexical _ List.mem_cons_self).ne_nil
    exact (minus_rule_start filled apart).mp (fits.minus [] digit later same isDigit)

theorem Fits.tail (fits : Fits offset afterNumber (kind.lexeme ++ back)
    (tokenAt kind offset :: tokens)) :
    Fits (offset + Text.size kind.lexeme) kind.isNumber back tokens := by
  constructor
  · intro token member
    obtain ⟨front, later, same, span⟩ := fits.placed token (List.mem_cons_of_mem _ member)
    have behind : offset + Text.size kind.lexeme ≤ offset + Text.size front := by
      have apart := (List.pairwise_cons.mp fits.ordered).1 token member
      rw [span] at apart
      exact apart
    obtain ⟨middle, rfl, rest⟩ := Text.split_of_size_le same (Nat.le_of_add_le_add_left behind)
    exact ⟨middle, later, rest, by rw [span, place_append]⟩
  · exact (List.pairwise_cons.mp fits.ordered).2
  · intro token member
    exact fits.lexical token (List.mem_cons_of_mem _ member)
  · intro front c later same uncovered
    apply fits.gaps (kind.lexeme ++ front) c later (by simp [same])
    rw [place_append]
    intro token member
    rcases List.mem_cons.mp member with rfl | member
    · intro covered
      exact absurd covered.2 (Nat.not_lt.mpr (Nat.le_add_right _ _))
    · exact uncovered token member
  · intro token member number front c later same finish
    apply fits.maximal token (List.mem_cons_of_mem _ member) number (kind.lexeme ++ front) c later
      (by simp [same])
    rw [finish, place_append]
  · intro front digit later same isDigit
    have filled := Text.size_pos (fits.lexical _ List.mem_cons_self).ne_nil
    have rule := fits.minus (kind.lexeme ++ front) digit later (by simp [same]) isDigit
    rw [place_append] at rule
    exact (minus_rule_behind filled _).mp rule

-- A minus in the text is the start of the first lexeme or stands behind it.
theorem Begins.minus_rule (begins : Begins afterNumber kind back)
    (fits : Fits (offset + Text.size kind.lexeme) kind.isNumber back tokens)
    {front later : List Char} {digit : Char}
    (same : kind.lexeme ++ back = front ++ '-' :: digit :: later) (isDigit : digit.isDigit = true) :
    (∃ token ∈ tokenAt kind offset :: tokens, token.value.isNumber = true ∧
        token.span.lo = offset + Text.size front) ↔
      numberBefore afterNumber (tokenAt kind offset :: tokens) (offset + Text.size front) =
        false := by
  have filled := Text.size_pos begins.lexical.ne_nil
  by_cases behind : Text.size kind.lexeme ≤ Text.size front
  · obtain ⟨middle, rfl, rest⟩ := Text.split_of_size_le same behind
    rw [place_append]
    exact (minus_rule_behind filled _).mpr (fits.minus middle digit later rest isDigit)
  · obtain ⟨middle, split, rest⟩ :=
      Text.split_of_size_le same.symm (Nat.le_of_lt (Nat.lt_of_not_le behind))
    cases middle with
    | nil =>
        rw [split, List.append_nil] at behind
        exact absurd (Nat.le_refl _) behind
    | cons first middle =>
        obtain rfl : '-' = first := (List.cons.inj rest).1
        obtain rfl := begins.lexical.minus_first split
        have apart : ∀ token ∈ tokens, offset < token.span.lo := by
          intro token member
          exact Nat.lt_of_lt_of_le (Nat.lt_add_of_pos_right filled) (fits.token_bounds member).1
        exact (minus_rule_start filled apart).mpr (begins.minus digit later same isDigit)

theorem Begins.fits (begins : Begins afterNumber kind back)
    (fits : Fits (offset + Text.size kind.lexeme) kind.isNumber back tokens) :
    Fits offset afterNumber (kind.lexeme ++ back) (tokenAt kind offset :: tokens) := by
  constructor
  · intro token member
    rcases List.mem_cons.mp member with rfl | member
    · exact ⟨[], back, rfl, rfl⟩
    · obtain ⟨front, later, same, span⟩ := fits.placed token member
      exact ⟨kind.lexeme ++ front, later, by simp [same], by rw [span, place_append]⟩
  · exact List.pairwise_cons.mpr ⟨fun token member => (fits.token_bounds member).1, fits.ordered⟩
  · intro token member
    rcases List.mem_cons.mp member with rfl | member
    · exact begins.lexical
    · exact fits.lexical token member
  · intro front c later same uncovered
    have behind : Text.size kind.lexeme ≤ Text.size front := by
      have missed := uncovered _ List.mem_cons_self
      simp only [tokenAt, Span.sized] at missed
      omega
    obtain ⟨middle, rfl, rest⟩ := Text.split_of_size_le same behind
    apply fits.gaps middle c later rest
    rw [← place_append]
    intro token member
    exact uncovered token (List.mem_cons_of_mem _ member)
  · intro token member number front c later same finish
    rcases List.mem_cons.mp member with rfl | member
    · have level : Text.size kind.lexeme = Text.size front := Nat.add_left_cancel finish
      obtain ⟨_, rfl⟩ := Text.split_of_size_eq same level
      exact begins.maximal number
    · have bounds := fits.token_bounds member
      obtain ⟨middle, rfl, rest⟩ := Text.split_of_size_le same (by omega)
      apply fits.maximal token member number middle c later rest
      rw [finish, place_append]
  · intro front digit later same isDigit
    exact begins.minus_rule fits same isDigit

theorem Fits.head (fits : Fits offset afterNumber (c :: text) tokens) (kept : ¬ Skipped c) :
    ∃ kind back later, tokens = tokenAt kind offset :: later ∧ c :: text = kind.lexeme ++ back := by
  by_cases covered : ∃ token ∈ tokens, token.span.lo ≤ offset ∧ offset < token.span.hi
  case neg =>
    refine absurd (fits.gaps [] c text rfl ?_) kept
    intro token member inside
    exact covered ⟨token, member, inside⟩
  obtain ⟨token, member, low, high⟩ := covered
  cases tokens with
  | nil => contradiction
  | cons first later =>
      rcases List.mem_cons.mp member with rfl | member
      · obtain ⟨front, back, same, span⟩ := fits.placed token List.mem_cons_self
        have start : offset + Text.size front ≤ offset := by
          rw [span] at low
          exact low
        obtain rfl : front = [] := Text.size_eq_zero (by omega)
        refine ⟨token.value, back, later, ?_, same⟩
        rw [tokenAt, show token = ⟨token.value, token.span⟩ from rfl, span]
        rfl
      · have apart := (List.pairwise_cons.mp fits.ordered).1 token member
        have bounds := fits.token_bounds (List.mem_cons_self : first ∈ first :: later)
        omega

theorem Begins.numeral {lexeme : List Char} (begins : Begins afterNumber (.number lexeme) back) :
    ∃ c digits, lexeme = c :: digits ∧
      Cursor.beginsNumeral afterNumber c (digits ++ back) = true ∧
      (digits ++ back).takeWhile Char.isDigit = digits ∧
      (digits ++ back).dropWhile Char.isDigit = back := by
  have stops := begins.maximal rfl
  obtain ⟨digits, filled, all, same | same⟩ := begins.lexical
  · cases digits with
    | nil => contradiction
    | cons c digits =>
        have numeral : Cursor.beginsNumeral afterNumber c (digits ++ back) = true := by
          simp [Cursor.beginsNumeral, all c List.mem_cons_self]
        have split := Cursor.digits_split (fun d member => all d (List.mem_cons_of_mem _ member)) stops
        exact ⟨c, digits, same, numeral, split⟩
  · cases digits with
    | nil => contradiction
    | cons d digits =>
        have digit := all d List.mem_cons_self
        have written : (Kind.number lexeme).lexeme ++ back = '-' :: d :: (digits ++ back) := by
          rw [same]
          rfl
        have before := (begins.minus d (digits ++ back) written digit).mp rfl
        have numeral : Cursor.beginsNumeral afterNumber '-' (d :: digits ++ back) = true := by
          simp [Cursor.beginsNumeral, before, Cursor.touchesDigit, digit]
        exact ⟨'-', d :: digits, same, numeral, Cursor.digits_split all stops⟩

theorem Begins.single (begins : Begins afterNumber kind back) (plain : kind.isNumber = false) :
    ∃ c, kind.lexeme = [c] ∧ Kind.ofChar? c = some kind ∧
      Cursor.beginsNumeral afterNumber c back = false := by
  have known : ∃ c, kind.lexeme = [c] ∧ Kind.ofChar? c = some kind := by
    cases kind with
    | number lexeme => contradiction
    | operator op => exact begins.lexical
    | paren side => exact begins.lexical
  obtain ⟨c, lexeme, found⟩ := known
  refine ⟨c, lexeme, found, ?_⟩
  rw [← Bool.not_eq_true]
  intro numeral
  simp only [Cursor.beginsNumeral, (ofChar?_eq_some found).2.2.2.1, Bool.false_or, Bool.and_eq_true,
    beq_iff_eq, Bool.not_eq_true'] at numeral
  obtain ⟨⟨rfl, before⟩, touches⟩ := numeral
  cases back with
  | nil => contradiction
  | cons digit later =>
      have number := (begins.minus digit later (by rw [lexeme]; rfl) touches).mpr before
      rw [plain] at number
      contradiction

theorem Begins.tokens_eq (begins : Begins afterNumber kind back) (offset : Nat) :
    (Cursor.mk (kind.lexeme ++ back) offset afterNumber).tokens = tokenAt kind offset ::
      (Cursor.mk back (offset + Text.size kind.lexeme) kind.isNumber).tokens := by
  cases plain : kind.isNumber with
  | true =>
      cases kind with
      | number lexeme =>
          obtain ⟨c, digits, rfl, numeral, taken, dropped⟩ := begins.numeral
          rw [show (Kind.number (c :: digits)).lexeme ++ back = c :: (digits ++ back) from rfl,
            Cursor.tokens_numeral numeral, taken, dropped]
          rfl
      | operator op => contradiction
      | paren side => contradiction
  | false =>
      obtain ⟨c, lexeme, found, single⟩ := begins.single plain
      have size : Text.size kind.lexeme = 1 := by
        rw [lexeme]
        exact (ofChar?_eq_some found).2.2.2.2.2
      rw [tokenAt, size, lexeme]
      exact Cursor.tokens_single single found offset

theorem touchesDigit_dropWhile (rest : List Char) :
    Cursor.touchesDigit (rest.dropWhile Char.isDigit) = false := by
  induction rest with
  | nil => rfl
  | cons c rest ih =>
      cases digit : c.isDigit with
      | true => rwa [List.dropWhile_cons_of_pos digit]
      | false =>
          rw [List.dropWhile_cons_of_neg (by simp [digit])]
          exact digit

theorem begins_numeral {rest : List Char}
    (numeral : Cursor.beginsNumeral afterNumber c rest = true) :
    Begins afterNumber (.number (c :: rest.takeWhile Char.isDigit))
      (rest.dropWhile Char.isDigit) := by
  have taken : ∀ d ∈ rest.takeWhile Char.isDigit, d.isDigit = true :=
    List.all_eq_true.mp List.all_takeWhile
  have written : (Kind.number (c :: rest.takeWhile Char.isDigit)).lexeme ++
      rest.dropWhile Char.isDigit = c :: rest := by
    simp [Kind.lexeme]
  cases digit : c.isDigit with
  | true =>
      constructor
      · refine ⟨_, List.cons_ne_nil _ _, ?_, .inl rfl⟩
        intro d member
        rcases List.mem_cons.mp member with rfl | member
        · exact digit
        · exact taken d member
      · intro _
        exact touchesDigit_dropWhile rest
      · intro d later same _
        rw [written] at same
        rw [(List.cons.inj same).1] at digit
        exact absurd digit (by decide)
  | false =>
      simp only [Cursor.beginsNumeral, digit, Bool.false_or, Bool.and_eq_true, beq_iff_eq,
        Bool.not_eq_true'] at numeral
      obtain ⟨⟨rfl, before⟩, touches⟩ := numeral
      constructor
      · refine ⟨_, ?_, taken, .inr rfl⟩
        cases rest with
        | nil => exact absurd touches Bool.false_ne_true
        | cons d rest =>
            have digit : d.isDigit = true := touches
            rw [List.takeWhile_cons_of_pos digit]
            exact List.cons_ne_nil _ _
      · intro _
        exact touchesDigit_dropWhile rest
      · intro _ _ _ _
        exact ⟨fun _ => before, fun _ => rfl⟩

theorem begins_single {rest : List Char}
    (single : Cursor.beginsNumeral afterNumber c rest = false)
    (known : Kind.ofChar? c = some kind) : Begins afterNumber kind rest := by
  obtain ⟨lexeme, plain, _⟩ := ofChar?_eq_some known
  have lexical : Lexical kind := by
    cases kind with
    | number lexeme => contradiction
    | operator op => exact ⟨c, lexeme, known⟩
    | paren side => exact ⟨c, lexeme, known⟩
  constructor
  · exact lexical
  · intro number
    rw [plain] at number
    contradiction
  · intro digit later same isDigit
    rw [lexeme] at same
    obtain ⟨rfl, rfl⟩ := List.cons.inj same
    cases afterNumber with
    | true => simp [plain]
    | false =>
        rw [show Cursor.beginsNumeral false '-' (digit :: later) = digit.isDigit by
          simp [Cursor.beginsNumeral, Cursor.touchesDigit]] at single
        rw [single] at isDigit
        contradiction

theorem exists_begins (kept : ¬ Skipped c) (afterNumber : Bool) (rest : List Char) :
    ∃ kind back, c :: rest = kind.lexeme ++ back ∧ Begins afterNumber kind back := by
  cases numeral : Cursor.beginsNumeral afterNumber c rest with
  | true => exact ⟨_, _, by simp [Kind.lexeme], begins_numeral numeral⟩
  | false =>
      cases known : Kind.ofChar? c with
      | none =>
          have digit : c.isDigit = true := by
            rw [← Bool.not_eq_false]
            exact fun plain => kept ⟨plain, known⟩
          simp [Cursor.beginsNumeral, digit] at numeral
      | some kind =>
          exact ⟨kind, rest, by rw [(ofChar?_eq_some known).1]; rfl, begins_single numeral known⟩

theorem fits_iff : Fits offset afterNumber text tokens ↔
    tokens = (Cursor.mk text offset afterNumber).tokens := by
  induction length : text.length using Nat.strongRecOn
    generalizing text offset afterNumber tokens with
  | ind count ih =>
      subst length
      cases text with
      | nil =>
          rw [Cursor.tokens_end]
          constructor
          · exact fits_end
          · rintro rfl
            exact fits_nil offset afterNumber
      | cons c rest =>
          by_cases skipped : Skipped c
          · rw [Cursor.tokens_skipped skipped, ← ih rest.length (Nat.lt_succ_self _) rfl]
            constructor
            · intro fits
              exact fits.behind_skipped skipped
            · intro fits
              exact fits.before_skipped skipped
          · have shorter : ∀ kind back, c :: rest = kind.lexeme ++ back → Lexical kind →
                back.length < (c :: rest).length := by
              intro kind back same lexical
              have filled := List.length_pos_iff.mpr lexical.ne_nil
              rw [same, List.length_append]
              omega
            constructor
            · intro fits
              obtain ⟨kind, back, later, rfl, same⟩ := fits.head skipped
              rw [same] at fits ⊢
              have begins := fits.begins
              have tail := (ih _ (shorter kind back same begins.lexical) rfl).mp fits.tail
              rw [begins.tokens_eq, tail]
            · rintro rfl
              obtain ⟨kind, back, same, begins⟩ := exists_begins skipped afterNumber rest
              rw [same, begins.tokens_eq]
              exact begins.fits ((ih _ (shorter kind back same begins.lexical) rfl).mpr rfl)

end Remainders

variable {text : List Char} {tokens : List Token}

theorem Tokenizes.fits (tokenizes : Tokenizes text tokens) : Fits 0 false text tokens where
  placed := by
    intro token member
    obtain ⟨front, back, same, before, inside⟩ :=
      Span.slice?_eq_some_iff.mp (tokenizes.sliced token member)
    refine ⟨front, back, by rw [same, List.append_assoc], Span.ext ?_ ?_⟩
    · simp only [Span.sized, before, Nat.zero_add]
    · simp only [Span.sized, before, inside, Span.length, Nat.zero_add]
      have ordered := token.span.ordered
      omega
  ordered := tokenizes.ordered
  lexical := tokenizes.lexical
  gaps := by
    intro front c back same uncovered
    rw [Nat.zero_add] at uncovered
    rcases tokenizes.gaps _ c ⟨front, back, same, rfl⟩ uncovered with blank | plain
    · exact skipped_of_isBlank blank
    · exact plain
  maximal := by
    intro token member number front c back same finish
    rw [Nat.zero_add] at finish
    exact tokenizes.maximal token member number c ⟨front, back, same, finish.symm⟩
  minus := by
    intro front digit back same isDigit
    have minusAt : Text.CharAt text (Text.size front) '-' := ⟨front, digit :: back, same, rfl⟩
    have digitAt : Text.CharAt text (Text.size front + 1) digit := by
      refine ⟨front ++ ['-'], back, by simp [same], ?_⟩
      rw [Text.size_append]
      rfl
    rw [Nat.zero_add, tokenizes.minus _ digit minusAt digitAt isDigit, numberBefore]
    cases tokenBefore tokens (Text.size front) <;> simp

theorem Fits.tokenizes (fits : Fits 0 false text tokens) : Tokenizes text tokens where
  nonempty := fun token member => (fits.token_bounds member).2
  bounded := by
    intro token member
    obtain ⟨front, back, same, span⟩ := fits.placed token member
    rw [same, span]
    simp only [Text.size_append, Span.sized]
    omega
  ordered := fits.ordered
  sliced := by
    intro token member
    obtain ⟨front, back, same, span⟩ := fits.placed token member
    rw [Span.slice?_eq_some_iff]
    refine ⟨front, back, by rw [same, List.append_assoc], ?_, ?_⟩
    · simp only [span, Span.sized, Nat.zero_add]
    · simp only [span, Span.sized, Span.length, Nat.add_sub_cancel_left]
  lexical := fits.lexical
  gaps := by
    rintro _ c ⟨front, back, same, rfl⟩ uncovered
    refine .inr (fits.gaps front c back same ?_)
    rwa [Nat.zero_add]
  maximal := by
    rintro token member number c ⟨front, back, same, finish⟩
    exact fits.maximal token member number front c back same (by rw [finish, Nat.zero_add])
  minus := by
    rintro _ digit ⟨front, back, same, rfl⟩ ⟨front', back', same', behind⟩ isDigit
    -- The digit is the character behind the minus, for the bytes in front of both are known.
    have level : Text.size front' = Text.size (front ++ ['-']) := by
      rw [behind, Text.size_append]
      rfl
    have apart : front' ++ digit :: back' = (front ++ ['-']) ++ back := by
      rw [← same', same]
      simp
    obtain ⟨_, rfl⟩ := Text.split_of_size_eq apart level
    have rule := fits.minus front digit back' same isDigit
    rw [Nat.zero_add] at rule
    rw [rule, numberBefore]
    cases tokenBefore tokens (Text.size front) <;> simp

theorem tokenizes_iff : Tokenizes text tokens ↔ tokens = (Cursor.ofText text).tokens :=
  ⟨fun tokenizes => fits_iff.mp tokenizes.fits, fun read => (fits_iff.mpr read).tokenizes⟩

theorem Lexical.ne_negate {kind : Kind} (lexical : Lexical kind) : kind ≠ .operator .negate := by
  rintro rfl
  obtain ⟨c, _, found⟩ := lexical
  exact (ofChar?_eq_some found).2.2.1 rfl

/-- Reading a text gives its one tokenization, and no unary minus. -/
theorem scan_tokenizes (text : List Char) :
    ∃ tokens, scan .tolerant text = .ok tokens ∧ Tokenizes text tokens ∧
      (∀ other, Tokenizes text other → other = tokens) ∧
      ∀ token ∈ tokens, token.value ≠ .operator .negate := by
  have tokenizes : Tokenizes text (Cursor.ofText text).tokens := tokenizes_iff.mpr rfl
  refine ⟨_, scan_tolerant text, tokenizes, ?_, ?_⟩
  · intro other tokenizes
    exact tokenizes_iff.mp tokenizes
  · intro token member
    exact (tokenizes.lexical token member).ne_negate

end Rpn
