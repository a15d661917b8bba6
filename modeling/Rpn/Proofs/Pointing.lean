import Rpn.Proofs.Hulls
import Rpn.Proofs.MinusSigns
import Rpn.Proofs.Outcomes
import Rpn.Proofs.Shown
import Rpn.Proofs.Values
import Rpn.Proofs.Verdict
/-!
Where spans point. Every span that a conversion hands out cuts the text between characters, and the
characters it cuts out are the ones that its symbol or its error is about. Marking and reordering keep
the spans of the tokens; the only spans that are made later are joins, which start where one token
starts and end where one token ends.
-/
namespace Rpn

/-- The characters of a text that a symbol stands for. -/
def Symbol.source : Symbol → List Char
  | .number lexeme => lexeme
  | .operator (.binary op) => [op.sign]
  | .operator .negate => ['-']

def operatorSigns : List Char := ['+', '-', '*', '/', '^']

/-- The span is not empty, lies in the text between two characters, and cuts out `lexeme`. -/
structure Shows (text : List Char) (span : Span) (lexeme : List Char) : Prop where
  filled : span.lo < span.hi
  bounded : span.hi ≤ Text.size text
  sliced : span.slice? text = some lexeme

/-- The spans do not overlap. -/
def Span.Apart (a b : Span) : Prop := a.hi ≤ b.lo ∨ b.hi ≤ a.lo

/-- Every symbol stands at its place, no two places overlap, and together they cover the digits and the
operators of the text. -/
structure SymbolsPoint (text : List Char) (symbols : Postfix) : Prop where
  shown : ∀ symbol ∈ symbols, Shows text symbol.span symbol.value.source
  apart : symbols.Pairwise fun first later => first.span.Apart later.span
  covered : ∀ place, (∃ symbol ∈ symbols, symbol.span.Covers place) ↔
    ∃ c, Text.CharAt text place c ∧ (c.isDigit = true ∨ c ∈ operatorSigns)

def ParenError.side : ParenError → Side
  | .unclosed => .opening
  | .unmatched => .closing

def ShapeError.Points (text : List Char) (tokens : List Token) (span : Span) : ShapeError → Prop
  | .missingOperand => ∃ sign ∈ operatorSigns, Shows text span [sign]
  | .extraOperands _ => (∃ lexeme, Shows text span lexeme) ∧
      (∃ first ∈ tokens, first.span.lo = span.lo) ∧ ∃ last ∈ tokens, last.span.hi = span.hi
  | .empty => span = Text.whole text ∧ span.slice? text = some text ∧ (text ≠ [] → span.lo < span.hi)

/-- What stands at the place of every error. -/
def ConvertError.Points (text : List Char) (tokens : List Token) : ConvertError → Prop
  | .scan errors => ∀ error ∈ errors, ∃ c, error.value = .invalidChar c ∧ Shows text error.span [c]
  | .parens error => Shows text error.span [error.value.side.sign]
  | .shape error => error.value.Points text tokens error.span

/-- A label of the event marks a stretch of the line that it shows. -/
def Event.Fits (event : Event) : Prop :=
  ∀ report label, event = .diagnostic report → report.label = some label →
    ∃ marked, label.span.slice? label.line = some marked

section Characters
variable {text lexeme : List Char} {span : Span}

theorem Shows.of_slice (sliced : span.slice? text = some lexeme) (filled : lexeme ≠ []) :
    Shows text span lexeme := by
  obtain ⟨front, back, whole, before, inside⟩ := Span.slice?_eq_some_iff.mp sliced
  have positive := Text.size_pos filled
  have ordered := span.ordered
  rw [inside, Span.length] at positive
  refine ⟨by omega, ?_, sliced⟩
  rw [Span.length] at inside
  rw [whole, Text.size_append, Text.size_append]
  omega

end Characters

section Lexemes
variable {kind : Kind} {c : Char}

theorem narrow_of_isDigit (digit : c.isDigit = true) : c.utf8Size = 1 := by
  simp only [Char.isDigit, Bool.and_eq_true, decide_eq_true_eq] at digit
  exact Char.utf8Size_eq_one_iff.mpr (UInt32.le_trans digit.2 (by decide))

theorem Lexical.narrow (lexical : Lexical kind) : ∀ c ∈ kind.lexeme, c.utf8Size = 1 := by
  intro c member
  cases kind with
  | number lexeme =>
      obtain ⟨digits, _, decimal, rfl | rfl⟩ := lexical
      · exact narrow_of_isDigit (decimal c member)
      · rcases List.mem_cons.mp member with rfl | later
        · rfl
        · exact narrow_of_isDigit (decimal c later)
  | operator op =>
      obtain ⟨known, single, found⟩ := lexical
      rw [single, List.mem_singleton] at member
      exact member ▸ (ofChar?_eq_some found).2.2.2.2.2
  | paren side =>
      obtain ⟨known, single, found⟩ := lexical
      rw [single, List.mem_singleton] at member
      exact member ▸ (ofChar?_eq_some found).2.2.2.2.2

theorem mem_operatorSigns (op : Binary) : op.sign ∈ operatorSigns := by
  cases op <;> decide

theorem Lexical.outside_paren (lexical : Lexical kind) (plain : kind.isParen = false) :
    ∀ c ∈ kind.lexeme, c.isDigit = true ∨ c ∈ operatorSigns := by
  intro c member
  cases kind with
  | number lexeme =>
      obtain ⟨digits, _, decimal, rfl | rfl⟩ := lexical
      · exact .inl (decimal c member)
      · rcases List.mem_cons.mp member with rfl | later
        · exact .inr (by decide)
        · exact .inl (decimal c later)
  | operator op =>
      cases op with
      | negate => exact absurd rfl lexical.ne_negate
      | binary op =>
          rw [Kind.lexeme, List.mem_singleton] at member
          exact .inr (member ▸ mem_operatorSigns op)
  | paren side => contradiction

theorem not_wanted (skipped : Skipped c) : ¬ (c.isDigit = true ∨ c ∈ operatorSigns) := by
  obtain ⟨plain, unknown⟩ := skipped
  rintro (digit | sign)
  · rw [plain] at digit
    contradiction
  · refine ofChar?_eq_none_iff.mp unknown ?_
    exact List.mem_of_mem_take (i := 5) sign

theorem side_not_covered (side : Side) :
    ¬ (side.sign.isDigit = true ∨ side.sign ∈ operatorSigns) := by
  cases side <;> decide

end Lexemes

section Symbols
variable {text : List Char} {tokens : List Token} {symbols : Postfix}

theorem mark_spans (tokens : List Token) :
    (Negation.mark tokens).map Spanned.span = tokens.map Spanned.span := by
  rw [Negation.mark, ← Negation.markBetween_none, Negation.markBetween_spans]

theorem mem_mark_iff (tokens : List Token) (i : Nat) (marked : Token) :
    (Negation.mark tokens)[i]? = some marked ↔ ∃ token, tokens[i]? = some token ∧
      marked = token.map (Negation.resolve (Negation.kindBefore tokens i)
        (Negation.kindAt tokens (i + 1))) := by
  rw [Negation.mark_getElem?, Option.map_eq_some_iff]
  simp only [eq_comm]

-- Marking changes only minus signs, and a negation is written as a minus.
theorem source_of_resolve {before after : Option Kind} {kind : Kind} {value : Symbol}
    (lexical : Lexical kind) (reads : (Negation.resolve before after kind).symbol? = some value) :
    value.source = kind.lexeme ∧ kind.isParen = false := by
  by_cases minus : kind = .operator (.binary .sub)
  · subst minus
    unfold Negation.resolve at reads
    split at reads <;> (obtain rfl := Option.some.inj reads; exact ⟨rfl, rfl⟩)
  · rw [Negation.resolve_of_ne_sub _ _ minus] at reads
    cases kind with
    | number lexeme =>
        obtain rfl := Option.some.inj reads
        exact ⟨rfl, rfl⟩
    | operator op =>
        obtain rfl := Option.some.inj reads
        cases op with
        | negate => exact absurd rfl lexical.ne_negate
        | binary op => exact ⟨rfl, rfl⟩
    | paren side => contradiction

/-- Every symbol is what the marks make of a token, at the place of the token. -/
theorem symbol_resolved (converted : parse tokens = .ok symbols) {symbol : Spanned Symbol}
    (member : symbol ∈ symbols) :
    ∃ token ∈ tokens, symbol.span = token.span ∧ ∃ before after,
      (Negation.resolve before after token.value).symbol? = some symbol.value := by
  have perm := Shunting.parse_perm converted
  obtain ⟨marked, present, read⟩ := List.mem_filterMap.mp (perm.subset member)
  obtain ⟨i, found⟩ := List.mem_iff_getElem?.mp present
  obtain ⟨token, there, rfl⟩ := (mem_mark_iff tokens i marked).mp found
  obtain ⟨value, reads, rfl⟩ := Option.map_eq_some_iff.mp read
  exact ⟨token, List.mem_of_getElem? there, rfl, _, _, reads⟩

theorem Tokenizes.symbol_source (tokenizes : Tokenizes text tokens)
    (converted : parse tokens = .ok symbols) {symbol : Spanned Symbol} (member : symbol ∈ symbols) :
    ∃ token ∈ tokens, token.value.isParen = false ∧ symbol.span = token.span ∧
      symbol.value.source = token.value.lexeme := by
  obtain ⟨token, listed, place, _, _, reads⟩ := symbol_resolved converted member
  obtain ⟨source, plain⟩ := source_of_resolve (tokenizes.lexical token listed) reads
  exact ⟨token, listed, plain, place, source⟩

theorem Tokenizes.symbol_of_token (converted : parse tokens = .ok symbols) {token : Token}
    (member : token ∈ tokens) (plain : token.value.isParen = false) :
    ∃ symbol ∈ symbols, symbol.span = token.span := by
  have perm := Shunting.parse_perm converted
  obtain ⟨i, there⟩ := List.mem_iff_getElem?.mp member
  have found := (mem_mark_iff tokens i _).mpr ⟨token, there, rfl⟩
  have reads : ∃ value, (Negation.resolve (Negation.kindBefore tokens i)
      (Negation.kindAt tokens (i + 1)) token.value).symbol? = some value := by
    cases known : Negation.resolve (Negation.kindBefore tokens i)
        (Negation.kindAt tokens (i + 1)) token.value with
    | number lexeme => exact ⟨_, rfl⟩
    | operator op => exact ⟨_, rfl⟩
    | paren side =>
        rw [Negation.resolve_eq_paren.mp known] at plain
        contradiction
  obtain ⟨value, reads⟩ := reads
  refine ⟨⟨value, token.span⟩, perm.symm.subset (List.mem_filterMap.mpr ?_), rfl⟩
  exact ⟨_, List.mem_of_getElem? found, Option.map_eq_some_iff.mpr ⟨value, reads, rfl⟩⟩

theorem Tokenizes.symbols_apart (tokenizes : Tokenizes text tokens)
    (converted : parse tokens = .ok symbols) :
    symbols.Pairwise fun first later => first.span.Apart later.span := by
  have perm := Shunting.parse_perm converted
  have ordered : ((Negation.mark tokens).map Spanned.span).Pairwise
      fun first later => first.hi ≤ later.lo := by
    rw [mark_spans]
    exact List.pairwise_map.mpr tokenizes.ordered
  have listed : ((Negation.mark tokens).filterMap Token.symbol?).Pairwise
      fun first later => first.span.Apart later.span := by
    refine List.pairwise_filterMap.mpr ((List.pairwise_map.mp ordered).imp ?_)
    intro marked later before symbol read other readOther
    rw [Span.Apart, symbol?_span read, symbol?_span readOther]
    exact .inl before
  exact (perm.pairwise_iff fun apart => Or.symm apart).mpr listed

theorem Tokenizes.symbols_point (tokenizes : Tokenizes text tokens)
    (converted : parse tokens = .ok symbols) : SymbolsPoint text symbols where
  shown := by
    intro symbol member
    obtain ⟨token, listed, _, span, source⟩ := tokenizes.symbol_source converted member
    rw [span, source]
    exact .of_slice (tokenizes.sliced token listed) (tokenizes.lexical token listed).ne_nil
  apart := tokenizes.symbols_apart converted
  covered := by
    intro place
    constructor
    · rintro ⟨symbol, member, covers⟩
      obtain ⟨token, listed, plain, span, _⟩ := tokenizes.symbol_source converted member
      have lexical := tokenizes.lexical token listed
      rw [span] at covers
      obtain ⟨c, inside, stands⟩ :=
        charAt_of_slice (tokenizes.sliced token listed) lexical.narrow covers.1 covers.2
      exact ⟨c, stands, lexical.outside_paren plain c inside⟩
    · rintro ⟨c, stands, wanted⟩
      have some : ∃ token ∈ tokens, token.span.Covers place := by
        by_contra none
        rcases tokenizes.gaps place c stands fun token member inside => none ⟨token, member, inside⟩
          with blank | skipped
        · exact not_wanted (skipped_of_isBlank blank) wanted
        · exact not_wanted skipped wanted
      obtain ⟨token, listed, covers⟩ := some
      have lexical := tokenizes.lexical token listed
      have plain : token.value.isParen = false := by
        cases known : token.value with
        | number lexeme => rfl
        | operator op => rfl
        | paren side =>
            obtain ⟨d, inside, there⟩ :=
              charAt_of_slice (tokenizes.sliced token listed) lexical.narrow covers.1 covers.2
            rw [known, Kind.lexeme, List.mem_singleton] at inside
            obtain rfl := Text.charAt_unique stands there
            exact absurd (inside ▸ wanted) (side_not_covered side)
      obtain ⟨symbol, member, span⟩ := symbol_of_token converted listed plain
      exact ⟨symbol, member, span ▸ covers⟩

end Symbols

/-! What is made of symbols starts where one of them starts and ends where one of them ends. -/
section Joins

structure Spread (symbols : Postfix) (span : Span) : Prop where
  filled : span.lo < span.hi
  starts : ∃ symbol ∈ symbols, symbol.span.lo = span.lo
  ends : ∃ symbol ∈ symbols, symbol.span.hi = span.hi

variable {symbols all : Postfix} {a b : Span} {trees final : List Expr} {error : Spanned ShapeError}

theorem Spread.join (first : Spread all a) (second : Spread all b) : Spread all (a.join b) where
  filled := by
    have := first.filled
    simp only [Span.join]
    omega
  starts := by
    rcases Span.join_lo_or a b with same | same
    · simpa only [same] using first.starts
    · simpa only [same] using second.starts
  ends := by
    rcases Span.join_hi_or a b with same | same
    · simpa only [same] using first.ends
    · simpa only [same] using second.ends

theorem Spread.foldl {span : Span} (start : Spread all span)
    (spread : ∀ tree ∈ trees, Spread all tree.span) :
    Spread all (trees.foldl (fun span tree => span.join tree.span) span) := by
  induction trees generalizing span with
  | nil => exact start
  | cons tree rest ih =>
      have joined := start.join (spread tree List.mem_cons_self)
      exact ih joined fun other member => spread other (List.mem_cons_of_mem _ member)

-- Placing a symbol on trees that are spread gives a tree that is, or blames the symbol, an operator.
theorem place_cases {symbol : Spanned Symbol} (here : Spread all symbol.span)
    (spread : ∀ tree ∈ trees, Spread all tree.span) :
    (∃ next, Postfix.place trees symbol = .ok next ∧ ∀ tree ∈ next, Spread all tree.span) ∨
      Postfix.place trees symbol = .error ⟨.missingOperand, symbol.span⟩ ∧
        ∃ op, symbol.value = .operator op := by
  obtain ⟨value, place⟩ := symbol
  match value, trees with
  | .number lexeme, trees => exact .inl ⟨_, rfl, List.forall_mem_cons.mpr ⟨here, spread⟩⟩
  | .operator .negate, operand :: trees =>
      obtain ⟨top, below⟩ := List.forall_mem_cons.mp spread
      exact .inl ⟨_, rfl, List.forall_mem_cons.mpr ⟨here.join top, below⟩⟩
  | .operator (.binary op), right :: left :: trees =>
      obtain ⟨top, later⟩ := List.forall_mem_cons.mp spread
      obtain ⟨second, below⟩ := List.forall_mem_cons.mp later
      exact .inl ⟨_, rfl, List.forall_mem_cons.mpr ⟨here.join (second.join top), below⟩⟩
  | .operator .negate, [] => exact .inr ⟨rfl, _, rfl⟩
  | .operator (.binary op), [] => exact .inr ⟨rfl, _, rfl⟩
  | .operator (.binary op), [_] => exact .inr ⟨rfl, _, rfl⟩

theorem forest_cases (here : ∀ symbol ∈ symbols, Spread all symbol.span)
    (spread : ∀ tree ∈ trees, Spread all tree.span) :
    (∃ final, Postfix.forest trees symbols = .ok final ∧ ∀ tree ∈ final, Spread all tree.span) ∨
      ∃ symbol ∈ symbols, ∃ op, symbol.value = .operator op ∧
        Postfix.forest trees symbols = .error ⟨.missingOperand, symbol.span⟩ := by
  induction symbols generalizing trees with
  | nil => exact .inl ⟨trees, rfl, spread⟩
  | cons symbol rest ih =>
      obtain ⟨now, later⟩ := List.forall_mem_cons.mp here
      rcases place_cases now spread with ⟨next, placed, still⟩ | ⟨failed, op, value⟩
      · rcases ih later still with ⟨final, built, kept⟩ | ⟨blamed, member, op, value, failed⟩
        · exact .inl ⟨final, by rw [Postfix.forest, placed]; exact built, kept⟩
        · refine .inr ⟨blamed, List.mem_cons_of_mem _ member, op, value, ?_⟩
          rw [Postfix.forest, placed]
          exact failed
      · refine .inr ⟨symbol, List.mem_cons_self, op, value, ?_⟩
        rw [Postfix.forest, failed]

theorem validate_cases (source : Span) (here : ∀ symbol ∈ symbols, Spread all symbol.span)
    (failed : symbols.validate source = .error error) :
    (error.value = .missingOperand ∧
      ∃ symbol ∈ symbols, (∃ op, symbol.value = .operator op) ∧ error.span = symbol.span) ∨
    (∃ count, error.value = .extraOperands count) ∧ Spread all error.span ∨
    error = ⟨.empty, source⟩ := by
  rw [Postfix.validate_eq_tree, Postfix.tree] at failed
  have empty : ∀ tree ∈ ([] : List Expr), Spread all tree.span := List.forall_mem_nil _
  rcases forest_cases here empty with ⟨final, built, spread⟩ | ⟨symbol, member, op, value, blamed⟩
  · rw [built] at failed
    have reversed : ∀ tree ∈ final.reverse, Spread all tree.span :=
      fun tree member => spread tree (List.mem_reverse.mp member)
    cases order : final.reverse with
    | nil =>
        simp only [order, Except.map, Except.error.injEq] at failed
        exact .inr (.inr failed.symm)
    | cons first later =>
        cases later with
        | nil => simp [order, Except.map] at failed
        | cons second later =>
            simp only [order, Except.map, Except.error.injEq] at failed
            rw [order] at reversed
            obtain ⟨_, others⟩ := List.forall_mem_cons.mp reversed
            obtain ⟨start, rest⟩ := List.forall_mem_cons.mp others
            rw [← failed]
            exact .inr (.inl ⟨⟨_, rfl⟩, start.foldl rest⟩)
  · simp only [blamed, Except.map, Except.error.injEq] at failed
    rw [← failed]
    exact .inl ⟨rfl, symbol, member, ⟨op, value⟩, rfl⟩

end Joins

section Errors
variable {mode : Mode} {text : List Char} {tokens : List Token} {symbols : Postfix}
  {error : ConvertError}

theorem mem_invalidFrom {offset : Nat} {item : Spanned Char} (member : item ∈ invalidFrom offset text) :
    ∃ front back, text = front ++ item.value :: back ∧
      item.span = .sized (offset + Text.size front) item.value.utf8Size := by
  induction text generalizing offset with
  | nil => contradiction
  | cons c rest ih =>
      have later : item ∈ invalidFrom (offset + c.utf8Size) rest →
          ∃ front back, c :: rest = front ++ item.value :: back ∧
            item.span = .sized (offset + Text.size front) item.value.utf8Size := by
        intro behind
        obtain ⟨front, back, rfl, span⟩ := ih behind
        exact ⟨c :: front, back, rfl, by rw [span, place_cons]⟩
      rw [invalidFrom] at member
      split at member
      · rcases List.mem_cons.mp member with rfl | behind
        · exact ⟨[], rest, rfl, rfl⟩
        · exact later behind
      · exact later member

theorem scan_points {errors : List (Spanned ScanError)} (failed : scan mode text = .error errors) :
    ConvertError.Points text tokens (.scan errors) := by
  intro error member
  rw [scan_eq_error failed] at member
  obtain ⟨item, listed, rfl⟩ := List.mem_map.mp member
  obtain ⟨front, back, whole, span⟩ := mem_invalidFrom listed
  refine ⟨item.value, rfl, .of_slice ?_ (List.cons_ne_nil _ _)⟩
  refine Span.slice?_eq_some_iff.mpr ⟨front, back, by simpa using whole, ?_, ?_⟩
  · simp [Spanned.map, span, Span.sized]
  · simp [Spanned.map, span, Span.sized, Span.length, Text.size]

theorem parens_point {reason : Spanned ParenError} (tokenizes : Tokenizes text tokens)
    (failed : parse tokens = .error reason) : ConvertError.Points text tokens (.parens reason) := by
  rcases Shunting.parse_cases tokens with ⟨⟨symbols, converted⟩, _⟩ | ⟨k, paren, blamed, _, found⟩
  · rw [converted] at failed
    contradiction
  · rw [blamed] at failed
    obtain rfl := Except.error.inj failed
    have side : (ParenError.ofSide paren.value).side = paren.value := by
      cases paren.value <;> rfl
    have sliced := tokenizes.sliced _ (List.mem_of_getElem? found)
    have shown : Shows text paren.span [paren.value.sign] :=
      .of_slice sliced (List.cons_ne_nil _ _)
    simpa only [ConvertError.Points, Spanned.map, side] using shown

theorem shape_points {reason : Spanned ShapeError} (tokenizes : Tokenizes text tokens)
    (converted : parse tokens = .ok symbols)
    (failed : symbols.validate (Text.whole text) = .error reason) :
    ConvertError.Points text tokens (.shape reason) := by
  have shown := (tokenizes.symbols_point converted).shown
  have here : ∀ symbol ∈ symbols, Spread symbols symbol.span := fun symbol member =>
    ⟨(shown symbol member).filled, ⟨symbol, member, rfl⟩, ⟨symbol, member, rfl⟩⟩
  rcases validate_cases _ here failed with
    ⟨value, symbol, member, ⟨op, operator⟩, span⟩ | ⟨⟨count, value⟩, spread⟩ | rfl
  · rw [ConvertError.Points, value, span]
    have place := shown symbol member
    rw [operator] at place
    cases op with
    | negate => exact ⟨'-', by decide, place⟩
    | binary op => exact ⟨op.sign, mem_operatorSigns op, place⟩
  · obtain ⟨filled, ⟨first, inFirst, lo⟩, ⟨last, inLast, hi⟩⟩ := spread
    obtain ⟨lexeme, sliced⟩ :=
      slice_between (shown first inFirst).sliced (shown last inLast).sliced lo hi
    obtain ⟨start, inStart, _, sameStart, _⟩ := tokenizes.symbol_source converted inFirst
    obtain ⟨stop, inStop, _, sameStop, _⟩ := tokenizes.symbol_source converted inLast
    have bounded := (shown last inLast).bounded
    rw [ConvertError.Points, value]
    exact ⟨⟨lexeme, filled, hi ▸ bounded, sliced⟩, ⟨start, inStart, sameStart ▸ lo⟩,
      ⟨stop, inStop, sameStop ▸ hi⟩⟩
  · refine ⟨rfl, Text.slice_whole text, ?_⟩
    intro written
    simpa [Text.whole, Span.sized] using Text.size_pos written

theorem error_points (failed : toPostfix mode text = .error error ∨ convert mode text = .error error) :
    error.Points text (Cursor.ofText text).tokens := by
  have tokenizes : Tokenizes text (Cursor.ofText text).tokens := tokenizes_iff.mpr rfl
  have early : toPostfix mode text = .error error →
      error.Points text (Cursor.ofText text).tokens := by
    intro failed
    rcases toPostfix_eq_error failed with ⟨errors, scanned, rfl⟩ | ⟨tokens, reason, scanned, parsed, rfl⟩
    · exact scan_points scanned
    · rw [scan_eq_ok scanned] at parsed
      exact parens_point tokenizes parsed
  rcases failed with failed | failed
  · exact early failed
  · rcases convert_eq_error failed with failed | ⟨symbols, reason, converted, invalid, rfl⟩
    · exact early failed
    · obtain ⟨tokens, scanned, parsed⟩ := toPostfix_eq_ok.mp converted
      rw [scan_eq_ok scanned] at parsed
      exact shape_points tokenizes parsed invalid

theorem symbols_point (converted : toPostfix mode text = .ok symbols) : SymbolsPoint text symbols := by
  obtain ⟨tokens, scanned, parsed⟩ := toPostfix_eq_ok.mp converted
  exact (tokenizes_iff.mpr (scan_eq_ok scanned)).symbols_point parsed

theorem ConvertError.Points.slices (points : error.Points text tokens) :
    ∀ message ∈ error.messages, ∃ marked, message.span.slice? text = some marked := by
  intro message member
  cases error with
  | scan errors =>
      obtain ⟨single, listed, rfl⟩ := List.mem_map.mp member
      obtain ⟨c, _, shown⟩ := points single listed
      exact ⟨_, shown.sliced⟩
  | parens single =>
      obtain rfl := List.mem_singleton.mp member
      exact ⟨_, Shows.sliced points⟩
  | shape single =>
      obtain rfl := List.mem_singleton.mp member
      obtain ⟨value, span⟩ := single
      cases value with
      | missingOperand =>
          obtain ⟨sign, _, shown⟩ := points
          exact ⟨_, shown.sliced⟩
      | extraOperands count =>
          obtain ⟨⟨lexeme, shown⟩, _⟩ := points
          exact ⟨_, shown.sliced⟩
      | empty => exact ⟨_, points.2.1⟩

end Errors

section Labels
variable {settings : Settings} {name : String} {text : List Char} {event : Event}

theorem fits_note (note : Note) : Event.Fits (.note note) := nofun

theorem fits_result (written : List Char) : Event.Fits (.result written) := nofun

theorem fits_message (severity : Severity) (message : String) :
    Event.Fits (.diagnostic { severity, message }) := by
  intro report label same labelled
  obtain rfl := Event.diagnostic.inj same
  contradiction

theorem fits_located {severity : Severity} {error : Spanned String} {marked : List Char}
    (sliced : error.span.slice? text = some marked) :
    (Attempt.located severity name text error).Fits := by
  rintro report label same labelled
  obtain rfl := Event.diagnostic.inj same
  obtain rfl := Option.some.inj labelled
  exact ⟨marked, sliced⟩

theorem log_fits {note : Note} (member : event ∈ settings.log note) : event.Fits :=
  settings.mem_log note member ▸ fits_note note

theorem failures_fit {errors : List (Spanned String)}
    (sliced : ∀ error ∈ errors, ∃ marked, error.span.slice? text = some marked)
    (member : event ∈ Attempt.failures settings name text errors) : event.Fits := by
  rw [Attempt.failures_shown] at member
  have shown := (List.mem_filter.mp member).1
  rw [Attempt.failures_eq settings.loud name text errors rfl] at shown
  rcases List.mem_append.mp shown with located | summed
  · obtain ⟨error, listed, rfl⟩ := List.mem_map.mp located
    obtain ⟨marked, cut⟩ := sliced error (List.mem_of_mem_take listed)
    exact fits_located cut
  · obtain rfl := List.mem_singleton.mp summed
    exact fits_message _ _

theorem incomplete_fits {error : Spanned ShapeError} {marked : List Char}
    (sliced : error.span.slice? text = some marked)
    (member : event ∈ Attempt.incomplete settings name text error) : event.Fits := by
  rcases List.mem_append.mp member with logged | located
  · exact log_fits logged
  · split at located
    · contradiction
    · obtain rfl := List.mem_singleton.mp located
      exact fits_located sliced

theorem attempt_fits (member : event ∈ (Attempt.ofText settings name text).events) : event.Fits := by
  have logged : event ∈ Attempt.log settings text → event.Fits := by
    intro member
    obtain ⟨note, _, logged⟩ := List.mem_flatMap.mp member
    exact log_fits logged
  cases converted : toPostfix settings.mode text with
  | ok symbols =>
      simp only [Attempt.ofText, converted, List.mem_append] at member
      rcases member with member | member
      · exact logged member
      · rw [Attempt.warnings] at member
        split at member
        · contradiction
        · rename_i reason invalid
          have failed : convert settings.mode text = .error (.shape reason) := by
            simp only [convert, converted, invalid]
          obtain ⟨marked, sliced⟩ := (error_points (.inr failed)).slices _ List.mem_cons_self
          exact incomplete_fits sliced member
  | error error =>
      simp only [Attempt.ofText, converted, List.mem_append] at member
      rcases member with member | member
      · exact logged member
      · exact failures_fit (error_points (.inl converted)).slices member

theorem announce_fits {write : Postfix → List Char} {attempt : Attempt}
    (fits : ∀ event ∈ attempt.events, event.Fits) (member : event ∈ (attempt.announce write).events) :
    event.Fits := by
  rcases List.mem_append.mp member with member | member
  · exact fits event member
  · obtain ⟨symbols, _, rfl⟩ := Option.map_eq_some_iff.mp (Option.mem_toList.mp member)
    exact fits_result _

theorem batch_fits {lines : List (List Char)}
    (member : event ∈ (Batch.run settings name lines).events) : event.Fits := by
  rw [Batch.run_eq] at member
  rcases List.mem_append.mp member with member | member
  · obtain ⟨attempt, listed, member⟩ := List.mem_flatMap.mp member
    obtain ⟨entry, _, rfl⟩ := List.mem_map.mp listed
    exact announce_fits (fun event => attempt_fits) member
  · exact log_fits member

theorem answer_fits {line : List Char} (member : event ∈ Session.answer settings line) :
    event.Fits := by
  rw [Session.answer] at member
  split at member
  · contradiction
  · exact announce_fits (fun event => attempt_fits) member

theorem perform_fits {environment : Environment} {input : Program.Input}
    (member : event ∈ (Program.perform settings environment input).events) : event.Fits := by
  cases input with
  | samples => exact batch_fits member
  | text name content => exact batch_fits member
  | prompt =>
      rw [Program.perform] at member
      split at member
      · obtain ⟨line, _, member⟩ := List.mem_flatMap.mp member
        exact answer_fits member
      · rw [Program.unlabelled] at member
        split at member
        · contradiction
        · obtain rfl := List.mem_singleton.mp member
          exact fits_message _ _

theorem report_fits {options : Options} {environment : Environment}
    (member : event ∈ (Program.report options environment).events) : event.Fits := by
  rw [Program.report] at member
  split at member
  · exact perform_fits member
  · split at member
    · contradiction
    · obtain rfl := List.mem_singleton.mp member
      exact fits_message _ _

end Labels

/-- In either mode every symbol and every error of a conversion points at the characters that it is
about, the symbols cover the digits and operators of the text without overlapping, and every label of a
report marks a stretch of the line that is shown with it. -/
theorem spans_point (mode : Mode) (text : List Char) :
    ∃ tokens, scan .tolerant text = .ok tokens ∧
      (∀ symbols, toPostfix mode text = .ok symbols ∨ convert mode text = .ok symbols →
        SymbolsPoint text symbols) ∧
      (∀ error, toPostfix mode text = .error error ∨ convert mode text = .error error →
        error.Points text tokens) ∧
      ∀ options environment, ∀ event ∈ (Program.report options environment).events, event.Fits := by
  refine ⟨_, scan_tolerant text, ?_, fun error => error_points, ?_⟩
  · rintro symbols (converted | converted)
    · exact symbols_point converted
    · exact symbols_point (convert_eq_ok converted).1
  · intro options environment event
    exact report_fits

/-- The accent takes two bytes, so the surplus number behind `é1` stands at the fourth. -/
theorem spans_point_accented :
    let text := ['é', '1', ' ', '2']
    convert .tolerant text = .error (.shape ⟨.extraOperands 2, .sized 4 1⟩) ∧
      ∃ lexeme, Shows text (.sized 4 1) lexeme := by
  intro text
  have failed : convert .tolerant text = .error (.shape ⟨.extraOperands 2, .sized 4 1⟩) := by
    decide +kernel
  obtain ⟨_, _, _, points, _⟩ := spans_point .tolerant text
  exact ⟨failed, (points _ (.inr failed)).1⟩

end Rpn
