import FieldFilter.Decimal.Reader
import FieldFilter.Query
import FieldFilter.Query.SyntaxError
import FieldFilter.Token.Lexer

/-!
# From tokens to a query tree

Precedence climbing over a list of tokens. `AND` binds tighter than `OR`, chains of one connective
group to the left, and `NOT` applies to a single term. Two depths are bounded by one limit: the
number of groups and negations around a token, which the cursor counts, and the height of the
tree, which each result carries along.

The list should end with an end-of-input token; when it does not, one is supplied behind the last
token. Every step that succeeds leaves fewer tokens than it found, which is why parsing ends.
-/

namespace FieldFilter.Query.Parser

/-! ## What may stand where -/

/-- The kinds that start a term. -/
def termStart : List Token.Kind := [.identifier, .leftParen, .not]

/-- The kinds that spell a value. -/
def valueStart : List Token.Kind := [.identifier, .number, .boolean]

/-- The kinds that may follow the colon of a condition. -/
def conditionStart : List Token.Kind :=
  [.identifier, .number, .boolean, .quoted, .comparison .above, .comparison .atLeast,
    .comparison .below, .comparison .atMost]

/-- The kinds that may follow a term inside a group. -/
def afterGroup : List Token.Kind := [.connective .and, .connective .or, .rightParen]

/-- The kinds that may follow a term outside every group. -/
def afterQuery : List Token.Kind := [.connective .and, .connective .or, .endOfInput]

/-! ## A place in a token list -/

/-- A place in a token list. -/
structure Cursor where
  /-- The tokens from here on. -/
  tokens : List Token
  /-- The offset of the end of input that is supplied when the tokens run out. -/
  finish : Nat
  /-- The number of groups and negations around this place. -/
  depth : Nat
  deriving DecidableEq, Repr

namespace Cursor

/-- The start of a token list. -/
def start (tokens : List Token) : Cursor :=
  ⟨tokens, (tokens.getLast?.map Token.textEnd).getD 0, 0⟩

/-- The token at this place. -/
def current (s : Cursor) : Token := s.tokens.headD (Token.endAt s.finish)

/-- The place after the current token. -/
def advance (s : Cursor) : Cursor := { s with tokens := s.tokens.tail }

/-- The same place inside one more group or negation. -/
def enter (s : Cursor) : Cursor := { s with depth := s.depth + 1 }

/-- The same place outside the innermost group or negation. -/
def leave (s : Cursor) : Cursor := { s with depth := s.depth - 1 }

/-- The error that the current token is none of the expected kinds. -/
def unexpected (s : Cursor) (expected : List Token.Kind) : SyntaxError :=
  if s.current.kind = .unknown then .unknownToken s.current.text s.current.offset
  else .unexpectedToken expected s.current.description s.current.offset

@[simp] theorem tokens_enter (s : Cursor) : s.enter.tokens = s.tokens := rfl

@[simp] theorem tokens_leave (s : Cursor) : s.leave.tokens = s.tokens := rfl

theorem length_advance_le (s : Cursor) : s.advance.tokens.length ≤ s.tokens.length := by
  simp [advance]

/-- Stepping over a token of the list leaves fewer; only the supplied end of input is not one. -/
theorem length_advance_lt {s : Cursor} (h : s.current.kind ≠ .endOfInput) :
    s.advance.tokens.length < s.tokens.length := by
  obtain ⟨tokens, finish, depth⟩ := s
  cases tokens with
  | nil => exact absurd rfl h
  | cons t ts => simp [advance]

end Cursor

/-! ## Conditions -/

/-- Read a literal value. -/
def value (s : Cursor) : Except SyntaxError (Value × Cursor) :=
  match s.current.kind with
  | .identifier => .ok (.identifier s.current.text, s.advance)
  | .boolean => .ok (.boolean (s.current.text == "true"), s.advance)
  | .number =>
    match Decimal.readExact? s.current.text with
    | some d => .ok (.number d, s.advance)
    | none => .error (.invalidNumber s.current.text s.current.offset)
  | _ => .error (s.unexpected valueStart)

/-- Read what follows the colon of a condition. -/
def condition (s : Cursor) : Except SyntaxError (Condition × Cursor) :=
  match s.current.kind with
  | .quoted => .ok (.quoted s.current.text, s.advance)
  | .comparison op => do
    let (v, next) ← value s.advance
    .ok (.compares op v, next)
  | kind =>
    if kind.isValue then do
      let (lower, next) ← value s
      if next.current.kind = .dots then do
        let (upper, next) ← value next.advance
        .ok (.within ⟨lower, upper⟩, next)
      else .ok (.equals lower, next)
    else .error (s.unexpected conditionStart)

/-- Read a condition on the field that the current token names. -/
def fieldTerm (s : Cursor) : Except SyntaxError (Query × Cursor) :=
  if s.advance.current.kind = .colon then do
    let (c, next) ← condition s.advance.advance
    .ok (.leaf s.current.text c, next)
  else .error (s.advance.unexpected [.colon])

theorem length_lt_of_value {s next : Cursor} {v : Value} (h : value s = .ok (v, next)) :
    next.tokens.length < s.tokens.length := by
  unfold value at h
  split at h
  · cases h
    exact Cursor.length_advance_lt (by simp [*])
  · cases h
    exact Cursor.length_advance_lt (by simp [*])
  · split at h
    · cases h
      exact Cursor.length_advance_lt (by simp [*])
    · cases h
  · cases h

theorem length_lt_of_condition {s next : Cursor} {c : Condition}
    (h : condition s = .ok (c, next)) : next.tokens.length < s.tokens.length := by
  unfold condition at h
  split at h
  · cases h
    exact Cursor.length_advance_lt (by simp [*])
  · cases hv : value s.advance with
    | error e => simp [hv, bind, Except.bind] at h
    | ok r =>
      simp only [hv, bind, Except.bind, Except.ok.injEq, Prod.mk.injEq] at h
      have := length_lt_of_value hv
      rw [h.2] at this
      exact Nat.lt_of_lt_of_le this s.length_advance_le
  · split at h
    · cases hv : value s with
      | error e => simp [hv, bind, Except.bind] at h
      | ok r =>
        simp only [hv, bind, Except.bind] at h
        have hl := length_lt_of_value hv
        split at h
        · cases hu : value r.2.advance with
          | error e => simp [hu] at h
          | ok u =>
            simp only [hu, Except.ok.injEq, Prod.mk.injEq] at h
            have hu' := length_lt_of_value hu
            have := r.2.length_advance_le
            rw [h.2] at hu'
            omega
        · simp only [Except.ok.injEq, Prod.mk.injEq] at h
          rw [← h.2]
          exact hl
    · cases h

theorem length_lt_of_fieldTerm {s next : Cursor} {q : Query}
    (h : fieldTerm s = .ok (q, next)) : next.tokens.length < s.tokens.length := by
  unfold fieldTerm at h
  split at h
  · cases hc : condition s.advance.advance with
    | error e => simp [hc, bind, Except.bind] at h
    | ok r =>
      simp only [hc, bind, Except.bind, Except.ok.injEq, Prod.mk.injEq] at h
      have hl := length_lt_of_condition hc
      have := s.advance.length_advance_le
      have := s.length_advance_le
      rw [h.2] at hl
      omega
  · cases h

/-! ## Terms and expressions -/

/-- A query read from a place with fewer than `bound` tokens left. -/
structure Operand (bound : Nat) where
  query : Query
  /-- The height of the query. -/
  height : Nat
  /-- The place after it. -/
  next : Cursor
  length_lt : next.tokens.length < bound

/-- An operand seen from further back. -/
def Operand.weaken {bound bound' : Nat} (o : Operand bound) (h : bound ≤ bound') :
    Operand bound' :=
  ⟨o.query, o.height, o.next, Nat.lt_of_lt_of_le o.length_lt h⟩

mutual

/-- Read a term: a group, a negated term, or a condition on a field. -/
def term (limit : Nat) (s : Cursor) : Except SyntaxError (Operand s.tokens.length) :=
  match hs : s.current.kind with
  | .leftParen =>
    if limit ≤ s.depth then .error (.nestingTooDeep limit s.current.offset)
    else do
      let inner ← expression limit 0 s.advance.enter
      if inner.next.current.kind = .rightParen then
        .ok ⟨inner.query, inner.height, inner.next.advance.leave,
          Nat.lt_of_le_of_lt inner.next.length_advance_le
            (Nat.lt_of_lt_of_le inner.length_lt s.length_advance_le)⟩
      else .error (inner.next.unexpected afterGroup)
  | .not =>
    if limit ≤ s.depth then .error (.nestingTooDeep limit s.current.offset)
    else do
      let operand ← term limit s.advance.enter
      if limit ≤ operand.height then .error (.nestingTooDeep limit s.current.offset)
      else
        .ok ⟨.not operand.query, operand.height + 1, operand.next.leave,
          Nat.lt_of_lt_of_le operand.length_lt s.length_advance_le⟩
  | .identifier =>
    match hq : fieldTerm s with
    | .ok (query, next) => .ok ⟨query, 0, next, length_lt_of_fieldTerm hq⟩
    | .error e => .error e
  | _ => .error (s.unexpected termStart)
termination_by 2 * s.tokens.length
decreasing_by
  all_goals
    have := Cursor.length_advance_lt (s := s) (by simp [hs])
    simp only [Cursor.tokens_enter]
    omega

/-- Read terms joined by connectives that bind at least as tightly as `min`. -/
def expression (limit min : Nat) (s : Cursor) : Except SyntaxError (Operand s.tokens.length) := do
  let first ← term limit s
  let whole ← climb limit min first.query first.height first.next
  .ok (whole.weaken first.length_lt)
termination_by 2 * s.tokens.length + 1
decreasing_by
  · omega
  · have := first.length_lt
    omega

/-- Join what follows to a query already read. The right side of a connective is read one level
tighter than the connective itself, so that chains of one connective group to the left and `OR` is
never drawn under an `AND`. -/
def climb (limit min : Nat) (left : Query) (height : Nat) (s : Cursor) :
    Except SyntaxError (Operand (s.tokens.length + 1)) :=
  match hs : s.current.kind with
  | .connective c =>
    if c.precedence < min then .ok ⟨left, height, s, Nat.lt_succ_self _⟩
    else do
      let right ← expression limit (c.precedence + 1) s.advance
      let taller := max height right.height
      if limit ≤ taller then .error (.nestingTooDeep limit s.current.offset)
      else do
        let whole ← climb limit min (.join c left right.query) (taller + 1) right.next
        .ok (whole.weaken (Nat.le_succ_of_le
          (Nat.le_trans right.length_lt s.length_advance_le)))
  | _ => .ok ⟨left, height, s, Nat.lt_succ_self _⟩
termination_by 2 * s.tokens.length
decreasing_by
  · have := Cursor.length_advance_lt (s := s) (by simp [hs])
    omega
  · have := Cursor.length_advance_lt (s := s) (by simp [hs])
    have := right.length_lt
    omega

end

end Parser

/-! ## Whole queries -/

/-- The depth limit that applies when none is chosen. -/
def defaultMaxDepth : Nat := 128

/-- The largest depth limit that has an effect; any higher one acts as this one. -/
def maxDepthLimit : Nat := 256

/-- The query that the tokens from a place on spell, its depths bounded by `maxDepth`. -/
def ofCursor (maxDepth : Nat) (s : Parser.Cursor) : Except SyntaxError Query := do
  let whole ← Parser.expression (min maxDepth maxDepthLimit) 0 s
  if whole.next.current.kind = .endOfInput then .ok whole.query
  else .error (whole.next.unexpected Parser.afterQuery)

/-- The query that a token list spells, its depths bounded by `maxDepth`. -/
def ofTokens (maxDepth : Nat) (tokens : List Token) : Except SyntaxError Query :=
  ofCursor maxDepth (Parser.Cursor.start tokens)

/-- The query that a text spells, its depths bounded by `maxDepth`. -/
def parse (maxDepth : Nat) (text : String) : Except SyntaxError Query :=
  ofTokens maxDepth (tokenize text)

end FieldFilter.Query
