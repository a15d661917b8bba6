import Rpn.Proofs.Layers
import Rpn.Proofs.Marking
import Rpn.Proofs.Rereading
/-!
What becomes of every minus of a text. The scanner gives a minus to the digits it touches, unless a
number stands before it, and the marks turn some of the others into negations. Both decide from the
tokens next to the minus, so the symbol that a minus ends up in can be told from the text and these
neighbours alone, in whatever order the symbols go out.
-/
namespace Rpn

/-- The first token that starts behind the place. -/
def tokenAfter (tokens : List Token) (place : Nat) : Option Token :=
  tokens.find? fun token => place < token.span.lo

def Span.Covers (span : Span) (place : Nat) : Prop := span.lo ≤ place ∧ place < span.hi

/-- A minus at the place is the sign of a number: it touches a digit, and no number stands before it. -/
def SignsNumber (text : List Char) (tokens : List Token) (place : Nat) : Prop :=
  (∃ digit, Text.CharAt text (place + 1) digit ∧ digit.isDigit = true) ∧
    ∀ previous, tokenBefore tokens place = some previous → previous.value.isNumber = false

/-- A minus at the place that signs no number negates: it is the first token, in front of a number or
a group, or it stands behind an operator or an opening parenthesis and in front of a number. -/
def NegatesAt (tokens : List Token) (place : Nat) : Prop :=
  (tokenBefore tokens place = none ∧ ∃ next, tokenAfter tokens place = some next ∧
    (next.value.isNumber ∨ next.value = .paren .opening)) ∨
  ∃ previous next, tokenBefore tokens place = some previous ∧ tokenAfter tokens place = some next ∧
    (previous.value.isOperator ∨ previous.value = .paren .opening) ∧ next.value.isNumber

/-- What the symbol at the place of a minus is. -/
structure Classified (text : List Char) (tokens : List Token) (place : Nat)
    (symbol : Spanned Symbol) : Prop where
  signs : (symbol.span.lo = place ∧ ∃ digits, symbol.value = .number ('-' :: digits)) ↔
    SignsNumber text tokens place
  negates : ¬ SignsNumber text tokens place →
    (symbol.value = .operator .negate ↔ NegatesAt tokens place)
  subtracts : ¬ SignsNumber text tokens place → ¬ NegatesAt tokens place →
    symbol.value = .operator (.binary .sub)
  touching : ∀ digit, Text.CharAt text (place + 1) digit → digit.isDigit = true →
    symbol.value ≠ .operator .negate

section Neighbours
variable {front back : List Token} {token : Token}

theorem tokenBefore_eq
    (ordered : (front ++ token :: back).Pairwise fun first later => first.span.hi ≤ later.span.lo)
    (filled : ∀ other ∈ front ++ token :: back, other.span.lo < other.span.hi) :
    tokenBefore (front ++ token :: back) token.span.lo = front.getLast? := by
  obtain ⟨_, tail, apart⟩ := List.pairwise_append.mp ordered
  have early : ∀ other ∈ front, decide (other.span.hi ≤ token.span.lo) = true := by
    intro other member
    exact decide_eq_true (apart other member token List.mem_cons_self)
  have late : ∀ other ∈ token :: back, ¬ decide (other.span.hi ≤ token.span.lo) = true := by
    intro other member
    have wide := filled other (List.mem_append_right _ member)
    rw [decide_eq_true_eq]
    rcases List.mem_cons.mp member with rfl | behind
    · omega
    · have := (List.pairwise_cons.mp tail).1 other behind
      have := filled token List.mem_append_cons_self
      omega
  rw [tokenBefore, List.filter_append, List.filter_eq_self.mpr early, List.filter_eq_nil_iff.mpr late,
    List.append_nil]

theorem tokenAfter_eq
    (ordered : (front ++ token :: back).Pairwise fun first later => first.span.hi ≤ later.span.lo)
    (filled : ∀ other ∈ front ++ token :: back, other.span.lo < other.span.hi) :
    tokenAfter (front ++ token :: back) token.span.lo = back.head? := by
  obtain ⟨_, tail, apart⟩ := List.pairwise_append.mp ordered
  have wide := filled token List.mem_append_cons_self
  have early : front.find? (fun other => decide (token.span.lo < other.span.lo)) = none := by
    apply List.find?_eq_none.mpr
    intro other member
    have := apart other member token List.mem_cons_self
    have := filled other (List.mem_append_left _ member)
    rw [decide_eq_true_eq]
    omega
  rw [tokenAfter, List.find?_append, early, Option.none_or,
    List.find?_cons_of_neg (by simp)]
  cases back with
  | nil => rfl
  | cons next back =>
      have apart := (List.pairwise_cons.mp tail).1 next List.mem_cons_self
      have behind : token.span.lo < next.span.lo := Nat.lt_of_lt_of_le wide apart
      simp [behind]

theorem negates_iff_negatesAt (tokens : List Token) (place : Nat) :
    Negation.negates ((tokenBefore tokens place).map Spanned.value)
      ((tokenAfter tokens place).map Spanned.value) = true ↔ NegatesAt tokens place := by
  unfold NegatesAt
  cases tokenBefore tokens place with
  | none => cases tokenAfter tokens place <;> simp [Negation.negates]
  | some previous => cases tokenAfter tokens place <;> simp [Negation.negates]

end Neighbours

section Signs
variable {text : List Char} {tokens : List Token} {place : Nat}

theorem Lexical.of_minus {kind : Kind} (lexical : Lexical kind) {digits : List Char}
    (written : kind.lexeme = '-' :: digits) :
    (∃ digits, kind = .number ('-' :: digits)) ∨ kind = .operator (.binary .sub) := by
  cases kind with
  | number lexeme => exact .inl ⟨digits, congrArg Kind.number written⟩
  | operator op =>
      obtain ⟨c, single, found⟩ := lexical
      rw [single] at written
      obtain ⟨rfl, _⟩ := List.cons.inj written
      exact .inr (Option.some.inj found).symm
  | paren side => cases side <;> simp [Kind.lexeme, Side.sign] at written

-- The token that a minus is part of starts with it, for no lexeme has a minus anywhere else.
theorem Tokenizes.minus_token (tokenizes : Tokenizes text tokens) (minus : Text.CharAt text place '-') :
    ∃ token ∈ tokens, token.span.lo = place ∧
      ((∃ digits, token.value = .number ('-' :: digits)) ∨
        token.value = .operator (.binary .sub)) := by
  by_cases covered : ∃ token ∈ tokens, token.span.Covers place
  case neg =>
    have loose := tokenizes.gaps place '-' minus fun token member inside =>
      covered ⟨token, member, inside⟩
    exact absurd loose (by decide)
  obtain ⟨token, member, low, high⟩ := covered
  have lexical := tokenizes.lexical token member
  obtain ⟨front, back, whole, before, inside⟩ :=
    Span.slice?_eq_some_iff.mp (tokenizes.sliced token member)
  obtain ⟨head, rest, same, size⟩ := minus
  rw [whole, List.append_assoc] at same
  obtain ⟨middle, rfl, split⟩ := Text.split_of_size_le same (by omega)
  have short : Text.size middle < Text.size token.value.lexeme := by
    rw [Text.size_append] at size
    rw [Span.length] at inside
    omega
  obtain ⟨later, written, tail⟩ := Text.split_of_size_le split.symm (Nat.le_of_lt short)
  have first : ∃ digits, token.value.lexeme = middle ++ '-' :: digits := by
    cases later with
    | nil =>
        rw [written, List.append_nil] at short
        exact absurd short (Nat.lt_irrefl _)
    | cons c digits =>
        obtain ⟨rfl, _⟩ := List.cons.inj tail
        exact ⟨digits, written⟩
  obtain ⟨digits, written⟩ := first
  obtain rfl := lexical.minus_first written
  rw [List.append_nil, before] at size
  exact ⟨token, member, size, lexical.of_minus written⟩

theorem Tokenizes.signs_of_number (tokenizes : Tokenizes text tokens)
    (minus : Text.CharAt text place '-') {token : Token} (member : token ∈ tokens)
    (start : token.span.lo = place) {digits : List Char}
    (number : token.value = .number ('-' :: digits)) : SignsNumber text tokens place := by
  obtain ⟨front, back, whole, before, _⟩ :=
    Span.slice?_eq_some_iff.mp (tokenizes.sliced token member)
  have lexical := tokenizes.lexical token member
  rw [number] at lexical whole
  obtain ⟨decimals, filled, decimal, written⟩ := lexical
  have digits_eq : digits = decimals := by
    rcases written with same | same
    · have bad := decimal '-' (same ▸ List.mem_cons_self)
      exact absurd bad (by decide)
    · exact (List.cons.inj same).2
  subst digits_eq
  cases digits with
  | nil => contradiction
  | cons digit digits =>
      have isDigit := decimal digit List.mem_cons_self
      have digitAt : Text.CharAt text (place + 1) digit := by
        refine ⟨front ++ ['-'], digits ++ back, by simp [whole, Kind.lexeme], ?_⟩
        rw [Text.size_append, before, start]
        rfl
      have rule := tokenizes.minus place digit minus digitAt isDigit
      exact ⟨⟨digit, digitAt, isDigit⟩, rule.mp ⟨token, member, by rw [number]; rfl, start⟩⟩

theorem Tokenizes.starts_apart (tokenizes : Tokenizes text tokens) {token other : Token}
    (member : token ∈ tokens) (present : other ∈ tokens) (same : token.span.lo = other.span.lo) :
    token = other := by
  obtain ⟨front, back, rfl⟩ := List.append_of_mem member
  obtain ⟨_, tail, apart⟩ := List.pairwise_append.mp tokenizes.ordered
  rcases List.mem_append.mp present with early | late
  · have before := apart other early token List.mem_cons_self
    have wide := tokenizes.nonempty other present
    omega
  · rcases List.mem_cons.mp late with rfl | late
    · rfl
    · have after := (List.pairwise_cons.mp tail).1 other late
      have wide := tokenizes.nonempty token member
      omega

theorem Tokenizes.not_signs (tokenizes : Tokenizes text tokens) (minus : Text.CharAt text place '-')
    {token : Token} (member : token ∈ tokens) (start : token.span.lo = place)
    (plain : token.value.isNumber = false) : ¬ SignsNumber text tokens place := by
  rintro ⟨⟨digit, digitAt, isDigit⟩, free⟩
  obtain ⟨other, present, number, same⟩ :=
    (tokenizes.minus place digit minus digitAt isDigit).mpr free
  obtain rfl := tokenizes.starts_apart member present (by rw [start, same])
  rw [plain] at number
  contradiction

end Signs

section Symbols
variable {tokens : List Token} {place : Nat}

theorem symbol?_span {token : Token} {symbol : Spanned Symbol}
    (read : token.symbol? = some symbol) : symbol.span = token.span := by
  obtain ⟨value, _, rfl⟩ := Option.map_eq_some_iff.mp read
  rfl

theorem symbol_spans {tokens marked : List Token} {symbol : Spanned Symbol}
    (spans : marked.map Spanned.span = tokens.map Spanned.span)
    (member : symbol ∈ marked.filterMap Token.symbol?) : ∃ token ∈ tokens, symbol.span = token.span := by
  obtain ⟨token, present, read⟩ := List.mem_filterMap.mp member
  have listed : token.span ∈ tokens.map Spanned.span := spans ▸ List.mem_map_of_mem present
  obtain ⟨other, found, same⟩ := List.mem_map.mp listed
  exact ⟨other, found, by rw [symbol?_span read, same]⟩

-- Marking and reordering keep the places, and of the tokens only one covers its first byte.
theorem symbol_alone {front back : List Token} {token : Token} {symbols : Postfix} {value : Symbol}
    (ordered : (front ++ token :: back).Pairwise fun first later => first.span.hi ≤ later.span.lo)
    (filled : ∀ other ∈ front ++ token :: back, other.span.lo < other.span.hi)
    (converted : parse (front ++ token :: back) = .ok symbols)
    (reads : (Negation.resolve (Negation.lastKind none front) (Negation.nextKind none back)
      token.value).symbol? = some value) :
    ∃ before after, symbols = before ++ ⟨value, token.span⟩ :: after ∧
      ∀ other ∈ before ++ after, ¬ other.span.Covers token.span.lo := by
  have perm := Shunting.parse_perm converted
  rw [Negation.mark, Negation.markFrom_append_cons] at perm
  have here : Token.symbol? (token.map (Negation.resolve (Negation.lastKind none front)
      (Negation.nextKind none back))) = some ⟨value, token.span⟩ := by
    simp [Token.symbol?, Spanned.map, reads]
  rw [List.filterMap_append, List.filterMap_cons_some here] at perm
  obtain ⟨before, after, rfl⟩ :=
    List.append_of_mem (perm.symm.subset List.mem_append_cons_self)
  refine ⟨before, after, rfl, ?_⟩
  have others := (List.perm_middle.symm.trans (perm.trans List.perm_middle)).cons_inv
  obtain ⟨_, tail, apart⟩ := List.pairwise_append.mp ordered
  have wide := filled token List.mem_append_cons_self
  rintro other member ⟨low, high⟩
  rcases List.mem_append.mp (others.subset member) with early | late
  · obtain ⟨source, present, same⟩ := symbol_spans (Negation.markBetween_spans _ _ _) early
    have := apart source present token List.mem_cons_self
    rw [same] at high
    omega
  · rw [← Negation.markBetween_none] at late
    obtain ⟨source, present, same⟩ := symbol_spans (Negation.markBetween_spans _ _ _) late
    have := (List.pairwise_cons.mp tail).1 source present
    rw [same] at low
    omega

theorem Tokenizes.symbol_at {text : List Char} (tokenizes : Tokenizes text tokens) {token : Token}
    {symbols : Postfix} {value : Symbol} (member : token ∈ tokens)
    (converted : parse tokens = .ok symbols)
    (reads : (Negation.resolve ((tokenBefore tokens token.span.lo).map Spanned.value)
      ((tokenAfter tokens token.span.lo).map Spanned.value) token.value).symbol? = some value) :
    ∃ before after, symbols = before ++ ⟨value, token.span⟩ :: after ∧
      ∀ other ∈ before ++ after, ¬ other.span.Covers token.span.lo := by
  obtain ⟨front, back, rfl⟩ := List.append_of_mem member
  rw [tokenBefore_eq tokenizes.ordered tokenizes.nonempty,
    tokenAfter_eq tokenizes.ordered tokenizes.nonempty] at reads
  apply symbol_alone tokenizes.ordered tokenizes.nonempty converted
  rw [Negation.lastKind, Negation.nextKind, Option.or_none, Option.or_none]
  exact reads

theorem resolve_minus (tokens : List Token) (place : Nat) :
    ∃ op, Negation.resolve ((tokenBefore tokens place).map Spanned.value)
        ((tokenAfter tokens place).map Spanned.value) (.operator (.binary .sub)) = .operator op ∧
      (op = .negate ↔ NegatesAt tokens place) ∧
      (¬ NegatesAt tokens place → op = .binary .sub) := by
  have law := negates_iff_negatesAt tokens place
  by_cases negates : NegatesAt tokens place
  · exact ⟨.negate, by simp [Negation.resolve, law.mpr negates], iff_of_true rfl negates,
      fun plain => absurd negates plain⟩
  · have plain := mt law.mp negates
    exact ⟨.binary .sub, by simp [Negation.resolve, plain], iff_of_false (by decide) negates, fun _ => rfl⟩

-- Where a minus touches a digit and signs no number, it is a number that stands before it.
theorem unsigned_not_negatesAt {text : List Char} (unsigned : ¬ SignsNumber text tokens place)
    {digit : Char} (digitAt : Text.CharAt text (place + 1) digit) (isDigit : digit.isDigit = true) :
    ¬ NegatesAt tokens place := by
  intro negates
  apply unsigned
  refine ⟨⟨digit, digitAt, isDigit⟩, ?_⟩
  intro previous found
  rcases negates with ⟨none, _⟩ | ⟨other, _, before, _, operator | opening, _⟩
  · rw [none] at found
    contradiction
  · obtain rfl := Option.some.inj (before.symm.trans found)
    cases known : other.value <;> simp [known, Kind.isOperator] at operator
    rfl
  · obtain rfl := Option.some.inj (before.symm.trans found)
    rw [opening]
    rfl

end Symbols

section Classification
variable {text : List Char} {tokens : List Token} {place : Nat} {span : Span}

theorem classified_number {digits : List Char} (signs : SignsNumber text tokens span.lo) :
    Classified text tokens span.lo ⟨.number ('-' :: digits), span⟩ where
  signs := iff_of_true ⟨rfl, digits, rfl⟩ signs
  negates := fun unsigned => absurd signs unsigned
  subtracts := fun unsigned => absurd signs unsigned
  touching := fun _ _ _ => nofun

theorem classified_operator {op : Operator} (unsigned : ¬ SignsNumber text tokens place)
    (negates : op = .negate ↔ NegatesAt tokens place)
    (subtracts : ¬ NegatesAt tokens place → op = .binary .sub) :
    Classified text tokens place ⟨.operator op, span⟩ where
  signs := iff_of_false nofun unsigned
  negates := fun _ => by rw [← negates, Symbol.operator.injEq]
  subtracts := fun _ plain => congrArg Symbol.operator (subtracts plain)
  touching := by
    intro digit digitAt isDigit same
    have negate : op = .negate := Symbol.operator.inj same
    exact unsigned_not_negatesAt unsigned digitAt isDigit (negates.mp negate)

end Classification

/-- Each minus of a text that is converted stands at the place of one symbol. It is the sign of a
number where it touches a digit and follows no number; else it negates where its neighbours say so,
and else it subtracts. So a minus that touches a digit never negates. -/
theorem minus_classified (mode : Mode) (text : List Char) (symbols : Postfix)
    (converted : toPostfix mode text = .ok symbols) :
    ∃ tokens, scan mode text = .ok tokens ∧ ∀ place, Text.CharAt text place '-' →
      ∃ before symbol after, symbols = before ++ symbol :: after ∧ symbol.span.Covers place ∧
        (∀ other ∈ before ++ after, ¬ other.span.Covers place) ∧
        Classified text tokens place symbol := by
  obtain ⟨tokens, scanned, parsed⟩ := toPostfix_eq_ok.mp converted
  have tokenizes : Tokenizes text tokens := tokenizes_iff.mpr (scan_eq_ok scanned)
  refine ⟨tokens, scanned, ?_⟩
  intro place minus
  obtain ⟨token, member, start, shape⟩ := tokenizes.minus_token minus
  subst start
  have covers : token.span.Covers token.span.lo :=
    ⟨Nat.le_refl _, tokenizes.nonempty token member⟩
  rcases shape with ⟨digits, number⟩ | sub
  · have signs := tokenizes.signs_of_number minus member rfl number
    have reads : (Negation.resolve ((tokenBefore tokens token.span.lo).map Spanned.value)
        ((tokenAfter tokens token.span.lo).map Spanned.value) token.value).symbol? =
        some (.number ('-' :: digits)) := by
      rw [number, Negation.resolve_of_ne_sub _ _ (Negation.number_ne_sub _)]
      rfl
    obtain ⟨before, after, split, alone⟩ := tokenizes.symbol_at member parsed reads
    exact ⟨before, _, after, split, covers, alone, classified_number signs⟩
  · have unsigned := tokenizes.not_signs minus member rfl (by rw [sub]; rfl)
    obtain ⟨op, resolved, negates, subtracts⟩ := resolve_minus tokens token.span.lo
    have reads : (Negation.resolve ((tokenBefore tokens token.span.lo).map Spanned.value)
        ((tokenAfter tokens token.span.lo).map Spanned.value) token.value).symbol? =
        some (.operator op) := by
      rw [sub, resolved]
      rfl
    obtain ⟨before, after, split, alone⟩ := tokenizes.symbol_at member parsed reads
    exact ⟨before, _, after, split, covers, alone, classified_operator unsigned negates subtracts⟩

/-- In `-(4)-3 -$2` the first minus negates, the second is a sign and the third subtracts. -/
theorem minus_classified_mixed :
    let text := "-(4)-3 -$2".toList
    let out : Postfix := [⟨.number ['4'], .sized 2 1⟩, ⟨.number ['-', '3'], .sized 4 2⟩,
      ⟨.operator .negate, .sized 0 1⟩, ⟨.number ['2'], .sized 9 1⟩,
      ⟨.operator (.binary .sub), .sized 7 1⟩]
    toPostfix .tolerant text = .ok out ∧
    ∃ tokens, scan .tolerant text = .ok tokens ∧ ∀ place, Text.CharAt text place '-' →
      ∃ before symbol after, out = before ++ symbol :: after ∧ symbol.span.Covers place ∧
        (∀ other ∈ before ++ after, ¬ other.span.Covers place) ∧
        Classified text tokens place symbol := by
  intro text out
  have converted : toPostfix .tolerant text = .ok out := by decide +kernel
  exact ⟨converted, minus_classified .tolerant text out converted⟩

end Rpn
