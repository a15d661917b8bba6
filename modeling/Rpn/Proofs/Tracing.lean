import Mathlib.Data.List.Forall2
import Rpn.Proofs.Actions
import Rpn.Proofs.MinusSigns
import Rpn.Proofs.Outcomes
import Rpn.Report.Trace
/-!
What the log of a conversion tells. Its notes on the pieces of the text are in the order of the text,
and they name every token and every character passed over. Its notes on the operators come in blocks,
one for each token, and a block tells what the token is. The notes on operators that yield can be read
off the output, since each of them stands for a symbol that an operator of lower rank sends out.
-/
namespace Rpn

/-- The values are those that are found at some position, in the order of the positions. -/
def InOrder {α : Type} (found : Nat → α → Prop) (values : List α) : Prop :=
  ∃ order : List Nat, order.Pairwise (· < ·) ∧ (∀ i, i ∈ order ↔ ∃ value, found i value) ∧
    List.Forall₂ found order values

/-- The values are those that are found at position `i`, of which there is one at most. -/
def OneAt {α : Type} (found : Nat → α → Prop) (i : Nat) (values : List α) : Prop :=
  (values = [] ∧ ∀ value, ¬ found i value) ∨ ∃ value, values = [value] ∧ found i value

section InOrder
variable {α β γ : Type} {found : Nat → α → Prop} {values : List α} {value : α}

theorem inOrder_nil (none : ∀ i value, ¬ found i value) : InOrder found [] :=
  ⟨[], .nil, by simp [none], .nil⟩

theorem InOrder.skip (tail : InOrder (fun i => found (i + 1)) values)
    (none : ∀ value, ¬ found 0 value) : InOrder found values := by
  obtain ⟨order, rising, members, valued⟩ := tail
  refine ⟨order.map (· + 1), rising.map _ fun _ _ => Nat.succ_lt_succ, ?_,
    List.forall₂_map_left_iff.mpr valued⟩
  intro i
  cases i with
  | zero => simp [none]
  | succ i => simp [members]

theorem InOrder.cons (tail : InOrder (fun i => found (i + 1)) values) (first : found 0 value) :
    InOrder found (value :: values) := by
  obtain ⟨order, rising, members, valued⟩ := tail
  refine ⟨0 :: order.map (· + 1), ?_, ?_, .cons first (List.forall₂_map_left_iff.mpr valued)⟩
  · refine List.pairwise_cons.mpr ⟨?_, rising.map _ fun _ _ => Nat.succ_lt_succ⟩
    simp
  · intro i
    cases i with
    | zero => simp only [List.mem_cons, true_or, true_iff]; exact ⟨value, first⟩
    | succ i => simp [members]

theorem InOrder.eq_nil (listed : InOrder found values) (none : ∀ i value, ¬ found i value) :
    values = [] := by
  obtain ⟨order, _, members, valued⟩ := listed
  cases valued with
  | nil => rfl
  | cons first => exact absurd first (none _ _)

/-- The value at the last of the positions comes last. -/
theorem InOrder.getLast? {k : Nat} (listed : InOrder found values) (here : found k value)
    (alone : ∀ other, found k other → other = value) (last : ∀ i other, found i other → i ≤ k) :
    values.getLast? = some value := by
  obtain ⟨order, rising, members, valued⟩ := listed
  have member : k ∈ order := (members k).mpr ⟨value, here⟩
  have bound : ∀ i ∈ order, i ≤ k := fun i other => by
    obtain ⟨_, there⟩ := (members i).mp other
    exact last i _ there
  clear members
  induction valued with
  | nil => contradiction
  | @cons i head order rest first tail ih =>
      obtain ⟨least, rising⟩ := List.pairwise_cons.mp rising
      obtain ⟨_, below⟩ := List.forall_mem_cons.mp bound
      cases tail with
      | nil =>
          obtain rfl : k = i := List.mem_singleton.mp member
          rw [List.getLast?_singleton, alone head first]
      | @cons j _ order rest second tail =>
          -- The first of several positions is not the last one.
          have later : k ∈ j :: order := by
            rcases List.mem_cons.mp member with rfl | later
            · have above := least j List.mem_cons_self
              have under := below j List.mem_cons_self
              omega
            · exact later
          rw [List.getLast?_cons_cons]
          exact ih rising later below

theorem inOrder_flatten {blocks : List (List α)}
    (each : ∀ i block, blocks[i]? = some block → OneAt found i block)
    (bound : ∀ i value, found i value → i < blocks.length) : InOrder found blocks.flatten := by
  induction blocks generalizing found with
  | nil => exact inOrder_nil fun i value here => absurd (bound i value here) (Nat.not_lt_zero i)
  | cons block rest ih =>
      have tail : InOrder (fun i => found (i + 1)) rest.flatten :=
        ih (fun i => each (i + 1)) fun i value here => Nat.lt_of_succ_lt_succ (bound (i + 1) value here)
      rcases each 0 block rfl with ⟨rfl, none⟩ | ⟨value, rfl, first⟩
      · exact tail.skip none
      · exact tail.cons first

theorem inOrder_blocks {blocks : List (List β)} {f : β → Option α}
    (each : ∀ i block, blocks[i]? = some block → OneAt found i (block.filterMap f))
    (bound : ∀ i value, found i value → i < blocks.length) :
    InOrder found (blocks.flatten.filterMap f) := by
  rw [List.filterMap_flatten]
  refine inOrder_flatten (fun i values listed => ?_) fun i value here => ?_
  · rw [List.getElem?_map] at listed
    obtain ⟨block, there, rfl⟩ := Option.map_eq_some_iff.mp listed
    exact each i block there
  · rw [List.length_map]
    exact bound i value here

/-- What some of the members show as `g` can be told from what they show as `f`. -/
theorem inOrder_filterMap {members : List β} {f : β → Option γ} {g : β → Option α}
    {told : γ → α → Prop} (silent : ∀ b ∈ members, f b = none → g b = none)
    (each : ∀ b ∈ members, ∀ c, f b = some c → ∀ a, told c a ↔ g b = some a) :
    InOrder (fun p a => ∃ c, (members.filterMap f)[p]? = some c ∧ told c a)
      (members.filterMap g) := by
  induction members with
  | nil => exact inOrder_nil fun p a => by simp
  | cons b rest ih =>
      obtain ⟨silentHere, silent⟩ := List.forall_mem_cons.mp silent
      obtain ⟨here, each⟩ := List.forall_mem_cons.mp each
      have tail := ih silent each
      cases shown : f b with
      | none => rwa [List.filterMap_cons_none shown, List.filterMap_cons_none (silentHere shown)]
      | some c =>
          rw [List.filterMap_cons_some shown]
          cases result : g b with
          | none =>
              rw [List.filterMap_cons_none result]
              refine tail.skip ?_
              rintro a ⟨other, same, tells⟩
              obtain rfl := Option.some.inj same
              rw [here c shown a, result] at tells
              contradiction
          | some a =>
              rw [List.filterMap_cons_some result]
              exact tail.cons ⟨c, rfl, (here c shown a).mpr result⟩

end InOrder

namespace Note

def token? : Note → Option Token
  | .token found => some found
  | _ => none

def skipped? : Note → Option (Spanned Char)
  | .skipping c => some c
  | _ => none

/-- The place in the text that a note of the scanner is about. -/
def piecePlace? : Note → Option Span
  | .token found => some found.span
  | .skipping c => some c.span
  | _ => none

def negation? : Note → Option Span
  | .negation place => some place
  | _ => none

def pop? : Note → Option Operator
  | .pop op => some op
  | _ => none

def push? : Note → Option Operator
  | .push op => some op
  | _ => none

def unmatched? : Note → Option Span
  | .unmatched place => some place
  | _ => none

end Note

namespace Trace

/-- The errors of a scan; one that succeeds has none. -/
def scanErrors : Except (List (Spanned ScanError)) (List Token) → List (Spanned ScanError)
  | .ok _ => []
  | .error errors => errors

/-- The notes of the scanner on a text. -/
structure Scanned (mode : Mode) (text : List Char) (notes : List Note) : Prop where
  origin : ∀ note ∈ notes, note.origin = .scanner
  ordered : (notes.filterMap Note.piecePlace?).Pairwise fun first later => first.hi ≤ later.lo
  tokens : scan .tolerant text = .ok (notes.filterMap Note.token?)
  skipped : mode = .tolerant → (notes.filterMap Note.skipped?).map (Spanned.map .invalidChar) =
    scanErrors (scan .strict text)
  strict : mode = .strict → notes.filterMap Note.skipped? = []

section Scanned
variable (mode : Mode) (pieces : List Piece)

theorem tokens_ofPieces :
    (ofPieces mode pieces).filterMap Note.token? = pieces.filterMap Piece.token? := by
  rw [ofPieces, List.filterMap_filterMap]
  refine List.filterMap_congr fun piece _ => ?_
  cases piece <;> cases mode <;> rfl

theorem skipped_tolerant : ((ofPieces .tolerant pieces).filterMap Note.skipped?).map
    (Spanned.map .invalidChar) = pieces.filterMap (Piece.error? .strict) := by
  rw [ofPieces, List.filterMap_filterMap, List.map_filterMap]
  refine List.filterMap_congr fun piece _ => ?_
  cases piece <;> rfl

theorem skipped_strict : (ofPieces .strict pieces).filterMap Note.skipped? = [] := by
  rw [ofPieces, List.filterMap_filterMap]
  refine List.filterMap_eq_nil_iff.mpr fun piece _ => ?_
  cases piece <;> rfl

theorem origin_of_piece {piece : Piece} {note : Note} (noted : piece.note? mode = some note) :
    note.origin = .scanner ∧ note.piecePlace? = some piece.place := by
  cases piece with
  | token found =>
      obtain rfl := Option.some.inj noted
      exact ⟨rfl, rfl⟩
  | invalid c =>
      cases mode with
      | strict => contradiction
      | tolerant =>
          obtain rfl := Option.some.inj noted
          exact ⟨rfl, rfl⟩

theorem scanErrors_strict (text : List Char) :
    scanErrors (scan .strict text) = (Cursor.ofText text).pieces.filterMap (Piece.error? .strict) := by
  rw [scan, Cursor.tokenize]
  split
  · rename_i none
    exact none.symm
  · rfl

theorem scanned_ofPieces (text : List Char) :
    Scanned mode text (ofPieces mode (Cursor.ofText text).pieces) where
  origin := by
    intro note member
    obtain ⟨piece, _, noted⟩ := List.mem_filterMap.mp member
    exact (origin_of_piece mode noted).1
  ordered := by
    rw [List.pairwise_filterMap, ofPieces, List.pairwise_filterMap]
    apply (Cursor.pieces_ordered (Cursor.ofText text)).imp
    intro first later before note noted other notedLater place here placeLater there
    rw [(origin_of_piece mode noted).2, Option.some.injEq] at here
    rw [(origin_of_piece mode notedLater).2, Option.some.injEq] at there
    rw [← here, ← there]
    exact before
  tokens := by rw [tokens_ofPieces, scan_tolerant, Cursor.tokens]
  skipped := by
    rintro rfl
    rw [skipped_tolerant, scanErrors_strict]
  strict := by
    rintro rfl
    exact skipped_strict _

end Scanned

/-- The minus at position `i`, at this place, negates. -/
def NegatesAt (tokens : List Token) (i : Nat) (place : Span) : Prop :=
  tokens[i]? = some ⟨.operator (.binary .sub), place⟩ ∧ Negation.Negates tokens i

/-- The closing parenthesis at position `i`, at this place, has no partner. -/
def UnmatchedAt (tokens : List Token) (i : Nat) (place : Span) : Prop :=
  tokens[i]? = some ⟨.paren .closing, place⟩ ∧ Brackets.Unmatched (outline tokens) i

/-- The notes on the token at position `i`. -/
inductive Block (tokens : List Token) (i : Nat) : List Note → Prop where
  | silent (plain : ∀ op, ¬ Negation.Reads tokens i (.operator op))
      (matched : ∀ place, ¬ UnmatchedAt tokens i place) : Block tokens i []
  | binary {op : Binary} {pops : List Operator}
      (reads : Negation.Reads tokens i (.operator (.binary op))) :
      Block tokens i (pops.map .pop ++ [.push (.binary op)])
  | negation {place : Span} {pops : List Operator} (negates : NegatesAt tokens i place) :
      Block tokens i (.negation place :: (pops.map .pop ++ [.push .negate]))
  | unmatched {place : Span} (unmatched : UnmatchedAt tokens i place) :
      Block tokens i [.unmatched place]

section Blocks
variable {tokens : List Token} {i : Nat} {place : Span}

theorem NegatesAt.reads (negates : NegatesAt tokens i place) :
    Negation.Reads tokens i (.operator .negate) := by
  refine ⟨.operator (.binary .sub), ?_, fun _ => rfl, fun other => absurd ⟨rfl, negates.2⟩ other⟩
  rw [Negation.kindAt, negates.1]
  rfl

theorem negatesAt_of_reads (unmarked : ∀ token ∈ tokens, token.value ≠ .operator .negate)
    (reads : Negation.Reads tokens i (.operator .negate)) {token : Token}
    (found : tokens[i]? = some token) : NegatesAt tokens i token.span := by
  obtain ⟨original, here, _, kept⟩ := reads
  rw [Negation.kindAt, found, Option.map_some, Option.some.injEq] at here
  by_cases negated : original = .operator (.binary .sub) ∧ Negation.Negates tokens i
  · refine ⟨?_, negated.2⟩
    rw [found, ← negated.1, ← here]
  · have other := unmarked token (List.mem_of_getElem? found)
    rw [here, ← kept negated] at other
    contradiction

theorem UnmatchedAt.reads (unmatched : UnmatchedAt tokens i place) :
    Negation.Reads tokens i (.paren .closing) := by
  have paren := (Negation.mark_paren_iff tokens i .closing place).mpr unmatched.1
  rw [Negation.reads_iff, Negation.kindAt, paren]
  rfl

theorem notes_yields (ops : List (Spanned Operator)) :
    (ops.map Shunting.Action.yield).filterMap Shunting.Action.note? =
      (ops.map Spanned.value).map .pop := by
  rw [List.filterMap_map, List.map_map]
  exact congrFun List.filterMap_eq_map ops

theorem notes_released (stack : Shunting.Stack) :
    stack.released.filterMap Shunting.Action.note? = [] := by
  rw [Shunting.Stack.released, List.filterMap_map]
  exact List.filterMap_eq_nil_iff.mpr fun op _ => rfl

/-- What an operator makes happen: it is noted when it negates, then what yields, then that it waits. -/
theorem notes_hold (stack : Shunting.Stack) (op : Spanned Operator) :
    (stack.hold op).2.filterMap Shunting.Action.note? =
      (Shunting.Action.ofArrival op).filterMap Shunting.Action.note? ++
        (((stack.waiting.takeWhile (Shunting.Stack.yieldsTo op)).map Spanned.value).map .pop ++
          [.push op.value]) := by
  rw [Shunting.Stack.hold, List.filterMap_append, List.filterMap_append, notes_yields, List.append_assoc]
  rfl

theorem block_of_step (unmarked : ∀ token ∈ tokens, token.value ≠ .operator .negate)
    {marked : Token} (found : (Negation.mark tokens)[i]? = some marked) :
    Block tokens i ((Shunting.step (Shunting.run {} ((Negation.mark tokens).take i)).1
      marked).2.filterMap Shunting.Action.note?) := by
  obtain ⟨kind, place⟩ := marked
  have reads : Negation.Reads tokens i kind := by
    rw [Negation.reads_iff, Negation.kindAt, found]
    rfl
  have silent (operand : ∀ op, kind ≠ .operator op) (closing : kind ≠ .paren .closing) :
      Block tokens i [] :=
    .silent (fun op other => operand op (reads.unique other))
      fun _ unmatched => closing (reads.unique unmatched.reads)
  generalize stacked : (Shunting.run {} ((Negation.mark tokens).take i)).1 = stack
  rcases kind with lexeme | op | side
  · exact silent (fun _ same => by contradiction) fun same => by contradiction
  · rw [Shunting.step, notes_hold stack ⟨op, place⟩]
    cases op with
    | binary op => exact .binary reads
    | negate =>
        rw [Negation.mark_getElem?] at found
        obtain ⟨token, original, same⟩ := Option.map_eq_some_iff.mp found
        obtain rfl : token.span = place := congrArg Spanned.span same
        exact .negation (negatesAt_of_reads unmarked reads original)
  · cases side with
    | opening =>
        refine silent (fun _ same => by contradiction) fun same => ?_
        injection same
        contradiction
    | closing =>
        have original := (Negation.mark_paren_iff tokens i .closing place).mp found
        have closed := Shunting.closeGroup_actions found
        rw [stacked, Negation.outline_mark] at closed
        rw [Shunting.step]
        rcases closed with ⟨unmatched, actions⟩ | ⟨matched, actions⟩
        · rw [actions, List.filterMap_append, notes_released]
          exact .unmatched ⟨original, unmatched⟩
        · rw [actions, notes_released]
          refine .silent (fun op other => ?_) fun _ unmatched => matched unmatched.2
          have same := reads.unique other
          contradiction

end Blocks

/-- The notes of the conversion itself, on the tokens of a text. -/
structure Parsed (tokens : List Token) (notes : List Note) : Prop where
  origin : ∀ note ∈ notes, note.origin = .parser
  blocks : ∃ blocks : List (List Note), notes = blocks.flatten ∧ blocks.length = tokens.length ∧
    ∀ i block, blocks[i]? = some block → Block tokens i block
  pushes : InOrder (fun i op => Negation.Reads tokens i (.operator op)) (notes.filterMap Note.push?)
  negations : InOrder (NegatesAt tokens) (notes.filterMap Note.negation?)
  unmatched : InOrder (UnmatchedAt tokens) (notes.filterMap Note.unmatched?)

section Parsed
variable {tokens : List Token} {i : Nat} {block : List Note}

-- Only the last note of an operator is not about one that yields.
theorem filterMap_pops {α : Type} {f : Note → Option α} (silent : ∀ op, f (.pop op) = none)
    (pops : List Operator) (op : Operator) :
    (pops.map Note.pop ++ [Note.push op]).filterMap f = (f (.push op)).toList := by
  have none : (pops.map Note.pop).filterMap f = [] := by
    rw [List.filterMap_map]
    exact List.filterMap_eq_nil_iff.mpr fun op _ => silent op
  rw [List.filterMap_append, none, List.filterMap_cons, List.filterMap_nil]
  cases f (.push op) <;> rfl

theorem Block.origin (told : Block tokens i block) : ∀ note ∈ block, note.origin = .parser := by
  have popped (pops : List Operator) (op : Operator) :
      ∀ note ∈ pops.map Note.pop ++ [Note.push op], note.origin = .parser := by
    intro note member
    rcases List.mem_append.mp member with early | last
    · obtain ⟨_, _, rfl⟩ := List.mem_map.mp early
      rfl
    · rw [List.mem_singleton.mp last]
      rfl
  cases told with
  | silent => exact List.forall_mem_nil _
  | binary => exact popped _ _
  | negation => exact List.forall_mem_cons.mpr ⟨rfl, popped _ _⟩
  | unmatched => exact List.forall_mem_singleton.mpr rfl

theorem Block.push (told : Block tokens i block) :
    OneAt (fun i op => Negation.Reads tokens i (.operator op)) i (block.filterMap Note.push?) := by
  have pushed := filterMap_pops (f := Note.push?) fun _ => rfl
  cases told with
  | silent plain => exact .inl ⟨rfl, plain⟩
  | binary reads => exact .inr ⟨_, pushed _ _, reads⟩
  | negation negates => exact .inr ⟨_, pushed _ _, negates.reads⟩
  | unmatched unmatched =>
      refine .inl ⟨rfl, fun op reads => ?_⟩
      have same := unmatched.reads.unique reads
      contradiction

theorem Block.negated (told : Block tokens i block) :
    OneAt (NegatesAt tokens) i (block.filterMap Note.negation?) := by
  have silent := filterMap_pops (f := Note.negation?) fun _ => rfl
  cases told with
  | silent plain => exact .inl ⟨rfl, fun place negates => plain _ negates.reads⟩
  | binary reads =>
      refine .inl ⟨silent _ _, fun place negates => ?_⟩
      have same := negates.reads.unique reads
      injection same
      contradiction
  | @negation place pops negates =>
      exact .inr ⟨place, congrArg (place :: ·) (silent pops .negate), negates⟩
  | unmatched unmatched =>
      refine .inl ⟨rfl, fun place negates => ?_⟩
      have same := unmatched.reads.unique negates.reads
      contradiction

theorem Block.left (told : Block tokens i block) :
    OneAt (UnmatchedAt tokens) i (block.filterMap Note.unmatched?) := by
  have silent := filterMap_pops (f := Note.unmatched?) fun _ => rfl
  cases told with
  | silent _ matched => exact .inl ⟨rfl, matched⟩
  | binary reads =>
      refine .inl ⟨silent _ _, fun place unmatched => ?_⟩
      have same := unmatched.reads.unique reads
      contradiction
  | negation negates =>
      refine .inl ⟨silent _ _, fun place unmatched => ?_⟩
      have same := unmatched.reads.unique negates.reads
      contradiction
  | unmatched unmatched => exact .inr ⟨_, rfl, unmatched⟩

theorem parsed_ofTokens (unmarked : ∀ token ∈ tokens, token.value ≠ .operator .negate) :
    Parsed tokens (ofTokens tokens) := by
  let marked := Negation.mark tokens
  let blocks := (Shunting.blocks {} marked).map (List.filterMap Shunting.Action.note?)
  have whole : ofTokens tokens = blocks.flatten := by
    rw [ofTokens, ← Shunting.blocks_flatten, List.filterMap_flatten]
  have length : blocks.length = tokens.length := by
    rw [List.length_map, Shunting.blocks_length, Negation.mark_length]
  have each (i : Nat) (block : List Note) (listed : blocks[i]? = some block) : Block tokens i block := by
    rw [List.getElem?_map, Shunting.blocks_getElem?, Option.map_map] at listed
    obtain ⟨token, found, rfl⟩ := Option.map_eq_some_iff.mp listed
    exact block_of_step unmarked found
  have bound {i : Nat} {token : Token} (found : tokens[i]? = some token) : i < blocks.length :=
    length ▸ (List.getElem?_eq_some_iff.mp found).1
  rw [whole]
  refine ⟨?_, ⟨blocks, rfl, length, each⟩, ?_, ?_, ?_⟩
  · intro note member
    obtain ⟨block, listed, here⟩ := List.mem_flatten.mp member
    obtain ⟨i, found⟩ := List.mem_iff_getElem?.mp listed
    exact (each i block found).origin note here
  · refine inOrder_blocks (fun i block listed => (each i block listed).push) fun i op reads => ?_
    obtain ⟨original, here, _⟩ := reads
    obtain ⟨token, found, _⟩ := Option.map_eq_some_iff.mp here
    exact bound found
  · exact inOrder_blocks (fun i block listed => (each i block listed).negated)
      fun i place negates => bound negates.1
  · exact inOrder_blocks (fun i block listed => (each i block listed).left)
      fun i place unmatched => bound unmatched.1

end Parsed

/-- The symbol at position `p` of the output stands for this operator of the tokens, and an operator of
lower rank stands behind it in the same group. -/
def Yielded (tokens : List Token) (symbols : Postfix) (p : Nat) (op : Operator) : Prop :=
  ∃ symbol, symbols[p]? = some symbol ∧ symbol.value = .operator op ∧
    ∃ i, Shunting.Emits tokens i symbol ∧ Shunting.GivesWay tokens i

section Pops
variable {text : List Char} {tokens : List Token} {symbols : Postfix} {i j : Nat}

-- The tokens of a text are told apart by their places.
theorem emits_unique (tokenizes : Tokenizes text tokens) {symbol : Spanned Symbol}
    (first : Shunting.Emits tokens i symbol) (second : Shunting.Emits tokens j symbol) : i = j := by
  obtain ⟨token, _, found, _, _, place⟩ := first
  obtain ⟨other, _, there, _, _, same⟩ := second
  rw [place] at same
  have wide := tokenizes.nonempty token (List.mem_of_getElem? found)
  obtain ⟨bound, rfl⟩ := List.getElem?_eq_some_iff.mp found
  obtain ⟨boundOther, rfl⟩ := List.getElem?_eq_some_iff.mp there
  have apart := List.pairwise_iff_getElem.mp tokenizes.ordered
  rcases Nat.lt_trichotomy i j with less | equal | more
  · have := apart i j bound boundOther less
    rw [← same] at this
    omega
  · exact equal
  · have := apart j i boundOther bound more
    rw [← same] at this
    omega

theorem emits_of_mark {op : Spanned Operator}
    (found : (Negation.mark tokens)[i]? = some ⟨.operator op.value, op.span⟩) :
    Shunting.Emits tokens i (Shunting.written op) := by
  have reads : Negation.Reads tokens i (.operator op.value) := by
    rw [Negation.reads_iff, Negation.kindAt, found]
    rfl
  rw [Negation.mark_getElem?] at found
  obtain ⟨token, original, same⟩ := Option.map_eq_some_iff.mp found
  exact ⟨token, _, original, reads, rfl, (congrArg Spanned.span same).symm⟩

/-- An operator that waits is noted as it goes out exactly when another one sends it out. -/
theorem yielded_iff (tokenizes : Tokenizes text tokens) (converted : parse tokens = .ok symbols)
    {action : Shunting.Action} {symbol : Spanned Symbol}
    (member : action ∈ (Shunting.run {} (Negation.mark tokens)).2 ++
      (Shunting.run {} (Negation.mark tokens)).1.released)
    (gone : action.symbol? = some symbol) (op : Operator) :
    (symbol.value = .operator op ∧
        ∃ i, Shunting.Emits tokens i symbol ∧ Shunting.GivesWay tokens i) ↔
      action.note?.bind Note.pop? = some op := by
  have overtaken := Shunting.overtaken_iff (Shunting.balanced_of_parse converted)
  have closed := Shunting.closed_of_parse converted
  cases action with
  | negation | hold | unmatched => contradiction
  | operand number =>
      obtain rfl := Option.some.inj gone
      exact iff_of_false (fun shown => by simp [Spanned.map] at shown) nofun
  | yield out =>
      obtain rfl := Option.some.inj gone
      obtain ⟨i, found, sent⟩ := (Shunting.leaves_of_closed closed).1 member
      constructor
      · rintro ⟨same, _⟩
        exact congrArg some (Symbol.operator.inj same)
      · intro same
        exact ⟨congrArg Symbol.operator (Option.some.inj same), i, emits_of_mark found,
          (overtaken i).mp sent⟩
  | release out =>
      obtain rfl := Option.some.inj gone
      obtain ⟨i, found, kept⟩ := (Shunting.leaves_of_closed closed).2 member
      refine iff_of_false ?_ nofun
      rintro ⟨_, j, emits, gives⟩
      obtain rfl := emits_unique tokenizes (emits_of_mark found) emits
      exact kept ((overtaken i).mpr gives)

/-- The notes on operators that yield, read off the output. -/
theorem pops_ofTokens (tokenizes : Tokenizes text tokens) (converted : parse tokens = .ok symbols) :
    InOrder (Yielded tokens symbols) ((ofTokens tokens).filterMap Note.pop?) := by
  let actions := (Shunting.run {} (Negation.mark tokens)).2 ++
    (Shunting.run {} (Negation.mark tokens)).1.released
  have notes : ofTokens tokens = actions.filterMap Shunting.Action.note? := by
    rw [List.filterMap_append, notes_released, List.append_nil, ofTokens]
  have out : symbols = actions.filterMap Shunting.Action.symbol? := by
    rw [Shunting.parse_of_closed (Shunting.closed_of_parse converted)] at converted
    exact (Except.ok.inj converted).symm
  rw [notes, List.filterMap_filterMap, out]
  refine inOrder_filterMap (fun action _ inside => ?_) fun action member symbol gone op => ?_
  · cases action <;> first | rfl | contradiction
  · exact yielded_iff tokenizes converted member gone op

end Pops

section Unmatched
variable {tokens : List Token} {places : List Span}

theorem unmatched_none {symbols : Postfix} (listed : InOrder (UnmatchedAt tokens) places)
    (converted : parse tokens = .ok symbols) : places = [] := by
  refine listed.eq_nil fun i place unmatched => ?_
  rcases Shunting.parse_cases tokens with ⟨_, free⟩ | ⟨_, _, failed, _⟩
  · exact free i unmatched.2
  · rw [converted] at failed
    contradiction

theorem unmatched_last {place : Span} (listed : InOrder (UnmatchedAt tokens) places)
    (failed : parse tokens = .error ⟨.unmatched, place⟩) : places.getLast? = some place := by
  rcases Shunting.parse_cases tokens with ⟨⟨_, converted⟩, _⟩ |
    ⟨k, ⟨side, start⟩, same, last, found⟩
  · rw [failed] at converted
    contradiction
  · rw [failed, Except.error.injEq, Spanned.map, Spanned.mk.injEq] at same
    obtain ⟨unmatched, rfl⟩ := same
    cases side with
    | opening => contradiction
    | closing =>
        refine listed.getLast? ⟨found, last.1⟩ (fun other unmatched => ?_) fun i other unmatched => ?_
        · have both := found.symm.trans unmatched.1
          rw [Option.some.injEq, Spanned.mk.injEq] at both
          exact both.2.symm
        · exact Nat.le_of_not_lt fun behind => last.2 i behind unmatched.2

end Unmatched

end Trace

/-- The notes on the pieces of the text come first. They name the tokens of tolerant mode, whichever mode
it is, and in tolerant mode also the characters that strict mode reports. Nothing follows when scanning
fails. Otherwise the operators, the negations and the unmatched closing parentheses are noted in the
order of the text. The last of the unmatched ones is the one that a conversion fails at, and none is
noted when it succeeds. The operators that yield are then noted in the order of the output. -/
theorem trace_faithful (mode : Mode) (text : List Char) :
    ∃ scanned parsed : List Note, trace mode text = scanned ++ parsed ∧
      Trace.Scanned mode text scanned ∧
      ((∃ errors, scan mode text = .error errors) → parsed = []) ∧
      ∀ tokens, scan mode text = .ok tokens → Trace.Parsed tokens parsed ∧
        (∀ symbols, toPostfix mode text = .ok symbols →
          parsed.filterMap Note.unmatched? = [] ∧
            InOrder (Trace.Yielded tokens symbols) (parsed.filterMap Note.pop?)) ∧
        ∀ place, toPostfix mode text = .error (.parens ⟨.unmatched, place⟩) →
          (parsed.filterMap Note.unmatched?).getLast? = some place := by
  refine ⟨_, _, rfl, Trace.scanned_ofPieces mode text, ?_, ?_⟩
  · rintro ⟨errors, failed⟩
    rw [failed]
  · intro tokens scanned
    rw [scanned]
    have tokenizes : Tokenizes text tokens := tokenizes_iff.mpr (scan_eq_ok scanned)
    have told := Trace.parsed_ofTokens fun token member => (tokenizes.lexical token member).ne_negate
    refine ⟨told, fun symbols converted => ?_, fun place failed => ?_⟩
    · obtain ⟨other, same, parsed⟩ := toPostfix_eq_ok.mp converted
      rw [scanned] at same
      obtain rfl := Except.ok.inj same
      exact ⟨Trace.unmatched_none told.unmatched parsed, Trace.pops_ofTokens tokenizes parsed⟩
    · rcases toPostfix_eq_error failed with ⟨errors, other, _⟩ |
        ⟨others, reason, same, parsed, reported⟩
      · rw [scanned] at other
        contradiction
      · rw [scanned] at same
        obtain rfl := Except.ok.inj same
        obtain rfl := ConvertError.parens.inj reported
        exact Trace.unmatched_last told.unmatched parsed

/-- In `2*3-$4` the product yields to the subtraction, and the sign between them is passed over. -/
theorem trace_faithful_yielding : ∃ tokens symbols scanned parsed,
    scan .tolerant "2*3-$4".toList = .ok tokens ∧ toPostfix .tolerant "2*3-$4".toList = .ok symbols ∧
      trace .tolerant "2*3-$4".toList = scanned ++ parsed ∧
      (scanned ++ parsed).filterMap Note.skipped? = [⟨'$', .sized 4 1⟩] ∧
      (scanned ++ parsed).filterMap Note.pop? = [.binary .mul] ∧
      InOrder (Trace.Yielded tokens symbols) (parsed.filterMap Note.pop?) := by
  have read : scan .tolerant "2*3-$4".toList = .ok [⟨.number ['2'], .sized 0 1⟩,
      ⟨.operator (.binary .mul), .sized 1 1⟩, ⟨.number ['3'], .sized 2 1⟩,
      ⟨.operator (.binary .sub), .sized 3 1⟩, ⟨.number ['4'], .sized 5 1⟩] := by decide +kernel
  have converted : toPostfix .tolerant "2*3-$4".toList = .ok [⟨.number ['2'], .sized 0 1⟩,
      ⟨.number ['3'], .sized 2 1⟩, ⟨.operator (.binary .mul), .sized 1 1⟩,
      ⟨.number ['4'], .sized 5 1⟩, ⟨.operator (.binary .sub), .sized 3 1⟩] := by decide +kernel
  obtain ⟨scanned, parsed, split, _, _, told⟩ := trace_faithful .tolerant "2*3-$4".toList
  obtain ⟨_, pops, _⟩ := told _ read
  refine ⟨_, _, scanned, parsed, read, converted, split, ?_, ?_, (pops _ converted).2⟩
  · rw [← split]
    decide +kernel
  · rw [← split]
    decide +kernel

end Rpn
