import FieldFilter.Proofs.Query.Lookahead

/-!
# Offsets do not steer the parser

The parser decides by the kinds and texts of tokens. It copies the offset of a token into an error
and never looks at one, nor at a token behind an end of input. So if the tokens are moved, and what
is behind the first end of input is dropped, the parser takes the same steps as before, to the same
query or to the moved error.
-/

namespace FieldFilter

/-- The token at another offset, found from its own. -/
def Token.relocate (g : Nat → Nat) (t : Token) : Token := { t with offset := g t.offset }

/-- The error at another offset, found from its own. -/
def SyntaxError.relocate (g : Nat → Nat) : SyntaxError → SyntaxError
  | unexpectedToken expected found offset => unexpectedToken expected found (g offset)
  | unknownToken lexeme offset => unknownToken lexeme (g offset)
  | invalidNumber lexeme offset => invalidNumber lexeme (g offset)
  | nestingTooDeep limit offset => nestingTooDeep limit (g offset)

namespace SyntaxError

/-- An error that is moved nowhere is as it was. -/
theorem relocate_id (e : SyntaxError) : e.relocate id = e := by
  cases e <;> rfl

/-- Only where the error is moves it. -/
theorem relocate_congr {g g' : Nat → Nat} {e : SyntaxError} (h : g e.offset = g' e.offset) :
    e.relocate g = e.relocate g' := by
  cases e <;> exact congrArg _ h

end SyntaxError

namespace Token

/-- A token keeps its kind wherever it is moved. -/
@[simp] theorem kind_relocate (g : Nat → Nat) (t : Token) : (t.relocate g).kind = t.kind := rfl

/-- A value does not depend on where it stands. -/
@[simp] theorem value?_relocate (g : Nat → Nat) (t : Token) :
    (t.relocate g).value? = t.value? := rfl

/-- The error that a token does not fit moves with the token. -/
theorem misfit_relocate (g : Nat → Nat) (expected : List Kind) (t : Token) :
    (t.relocate g).misfit expected = (t.misfit expected).relocate g := by
  unfold misfit
  rw [kind_relocate]
  split <;> rfl

/-- The error that a token is no value moves with the token. -/
theorem valueError_relocate (g : Nat → Nat) (t : Token) :
    (t.relocate g).valueError = t.valueError.relocate g := by
  unfold valueError
  rw [kind_relocate]
  split
  · rfl
  · exact misfit_relocate g _ t

/-- The tokens through the first end of input; if there is none, one is supplied. -/
def through (finish : Nat) : List Token → List Token
  | [] => [endAt finish]
  | t :: ts => if t.kind = .endOfInput then [t] else t :: through finish ts

/-- What stands in front of the first end of input is kept. -/
theorem through_append {read : List Token} (hread : ∀ t ∈ read, t.kind ≠ .endOfInput)
    (rest : List Token) (finish : Nat) :
    through finish (read ++ rest) = read ++ through finish rest := by
  induction read with
  | nil => rfl
  | cons t read ih =>
    rw [List.cons_append, through, if_neg (hread t List.mem_cons_self),
      ih fun u hu => hread u (List.mem_cons_of_mem _ hu), List.cons_append]

/-- What stands behind the first end of input is dropped. -/
theorem through_append_cons {body : List Token} {last : Token}
    (hbody : ∀ t ∈ body, t.kind ≠ .endOfInput) (hlast : last.kind = .endOfInput)
    (rest : List Token) (finish : Nat) :
    through finish (body ++ last :: rest) = body ++ [last] := by
  rw [through_append hbody, through, if_pos hlast]

end Token

namespace Query.Parser

open Cursor

/-! ## Places among moved tokens -/

namespace Cursor

/-- The tokens from here through the end of input. -/
def ahead (s : Cursor) : List Token := Token.through s.finish s.tokens

/-- An end of input that is put behind the tokens is the one that would be supplied. -/
theorem through_stream (s : Cursor) (finish : Nat) : Token.through finish s.stream = s.ahead := by
  obtain ⟨tokens, finish', depth⟩ := s
  simp only [stream, ahead]
  induction tokens with
  | nil => rfl
  | cons t tokens ih => rw [List.cons_append, Token.through, ih, Token.through]

/-- At an end of input nothing else is ahead. -/
theorem ahead_of_endOfInput {s : Cursor} (h : s.current.kind = .endOfInput) :
    s.ahead = [s.current] := by
  obtain ⟨tokens, finish, depth⟩ := s
  cases tokens with
  | nil => rfl
  | cons t ts => exact if_pos h

/-- The current token is ahead, and what is ahead of the place behind it. -/
theorem ahead_eq_cons {s : Cursor} (h : s.current.kind ≠ .endOfInput) :
    s.ahead = s.current :: s.advance.ahead := by
  obtain ⟨tokens, finish, depth⟩ := s
  cases tokens with
  | nil => exact absurd rfl h
  | cons t ts => exact if_neg h

/-- The same place among the same tokens, which are moved and have nothing behind their end of
input. -/
def moved (g : Nat → Nat) (s : Cursor) : Cursor := ⟨s.ahead.map (Token.relocate g), 0, s.depth⟩

variable (g : Nat → Nat)

/-- The current token moves with the others. -/
@[simp] theorem current_moved (s : Cursor) : (s.moved g).current = s.current.relocate g := by
  by_cases h : s.current.kind = .endOfInput
  · rw [moved, ahead_of_endOfInput h]
    rfl
  · rw [moved, ahead_eq_cons h]
    rfl

/-- Behind a token that is no end of input, the moved tokens go on with the moved rest. -/
theorem moved_advance {s : Cursor} (h : s.current.kind ≠ .endOfInput) :
    s.advance.moved g = (s.moved g).advance := by
  rw [moved, moved, ahead_eq_cons h]
  rfl

end Cursor

/-- The same call among moved tokens. -/
def Call.moved (g : Nat → Nat) (call : Call) : Call := call.at (call.place.moved g)

/-- The same reading among moved tokens. -/
def Reading.moved (g : Nat → Nat) (r : Reading) : Reading := ⟨r.query, r.height, r.next.moved g⟩

/-- What an outcome becomes if the tokens are moved: a result is changed in its place, an error in
its offset. -/
def relocated {α β : Type} (move : α → β) (g : Nat → Nat) :
    Except SyntaxError α → Except SyntaxError β
  | .ok a => .ok (move a)
  | .error e => .error (e.relocate g)

/-- An outcome among tokens that are moved nowhere is as it was. -/
theorem relocated_id {α : Type} (o : Except SyntaxError α) : relocated id id o = o := by
  cases o with
  | ok a => rfl
  | error e => exact congrArg Except.error e.relocate_id

/-! ## Conditions among moved tokens -/

section Conditions

variable {α : Type} (g : Nat → Nat)

/-- A result with the place behind it among moved tokens. -/
def movedNext (g : Nat → Nat) (r : α × Cursor) : α × Cursor := (r.1, r.2.moved g)

/-- What is made of a result does not depend on offsets. -/
theorem relocated_map {β : Type} (f : α → β) (x : Except SyntaxError (α × Cursor)) :
    relocated (movedNext g) g (x.map fun (a, next) => (f a, next)) =
      (relocated (movedNext g) g x).map fun (a, next) => (f a, next) := by
  cases x <;> rfl

/-- A value is read from a moved token as from the token. -/
theorem value_moved (s : Cursor) :
    value (s.moved g) = relocated (movedNext g) g (value s) := by
  cases hv : s.current.value? with
  | none =>
    have hv' : (s.moved g).current.value? = none := by simpa using hv
    rw [value_eq_error hv, value_eq_error hv', current_moved, Token.valueError_relocate]
    rfl
  | some v =>
    have hv' : (s.moved g).current.value? = some v := by simpa using hv
    rw [value_eq_ok hv, value_eq_ok hv', ← moved_advance g (ne_endOfInput_of_value? hv)]
    rfl

/-- A condition is read from moved tokens as from the tokens. -/
theorem condition_moved (s : Cursor) :
    condition (s.moved g) = relocated (movedNext g) g (condition s) := by
  have hkind : (s.moved g).current.kind = s.current.kind := by simp
  rcases condition_cases s with hk | ⟨op, hk⟩ | hk | ⟨hquoted, hcomparison, hvalue⟩
  · rw [condition_of_quoted hk, condition_of_quoted (hkind.trans hk),
      ← moved_advance g (by simp [hk]), current_moved]
    rfl
  · rw [condition_of_comparison hk, condition_of_comparison (hkind.trans hk),
      ← moved_advance g (by simp [hk]), value_moved]
    exact (relocated_map g (Condition.compares op) _).symm
  · have hk' : (s.moved g).current.kind.isValue = true := hkind ▸ hk
    cases hv : s.current.value? with
    | none =>
      have hv' : (s.moved g).current.value? = none := by simpa using hv
      rw [condition_of_value?_eq_none hk hv, condition_of_value?_eq_none hk' hv', current_moved,
        Token.valueError_relocate]
      rfl
    | some v =>
      have hv' : (s.moved g).current.value? = some v := by simpa using hv
      have hadvance := moved_advance g (ne_endOfInput_of_value? hv)
      rw [condition_of_value (value_eq_ok hv), condition_of_value (value_eq_ok hv'), ← hadvance,
        current_moved, Token.kind_relocate]
      split
      · rename_i hdots
        rw [← moved_advance g (by simp [hdots]), value_moved]
        exact (relocated_map g (fun upper => Condition.within ⟨v, upper⟩) _).symm
      · rfl
  · rw [condition_of_not_start hquoted hcomparison hvalue, condition_of_not_start
      (hkind ▸ hquoted) (hkind ▸ hcomparison) (hkind ▸ hvalue), current_moved,
      Token.misfit_relocate]
    rfl

/-- A condition on a field is read from moved tokens as from the tokens. -/
theorem fieldTerm_moved {s : Cursor} (hs : s.current.kind = .identifier) :
    fieldTerm (s.moved g) = relocated (movedNext g) g (fieldTerm s) := by
  have hadvance : s.advance.moved g = (s.moved g).advance := moved_advance g (by simp [hs])
  by_cases hcolon : s.advance.current.kind = .colon
  · have hcolon' : (s.moved g).advance.current.kind = .colon := by simpa [← hadvance] using hcolon
    rw [fieldTerm_of_colon hcolon, fieldTerm_of_colon hcolon', ← hadvance,
      ← moved_advance g (by simp [hcolon]), condition_moved, current_moved]
    exact (relocated_map g (leaf s.current.text) _).symm
  · have hcolon' : (s.moved g).advance.current.kind ≠ .colon := by simpa [← hadvance] using hcolon
    rw [fieldTerm_of_not_colon hcolon, fieldTerm_of_not_colon hcolon', ← hadvance, current_moved,
      Token.misfit_relocate]
    rfl

end Conditions

/-! ## Runs among moved tokens -/

/-- An error at the current token moves with it. -/
theorem unexpected_moved (g : Nat → Nat) (s : Cursor) (expected : List Token.Kind) :
    (s.moved g).unexpected expected = (s.unexpected expected).relocate g := by
  rw [unexpected_eq_misfit, unexpected_eq_misfit, current_moved, Token.misfit_relocate]

/-- An error of depth moves with the token at which it shows. -/
theorem nestingTooDeep_moved (g : Nat → Nat) (limit : Nat) (s : Cursor) :
    SyntaxError.nestingTooDeep limit (s.moved g).current.offset =
      (SyntaxError.nestingTooDeep limit s.current.offset).relocate g := by
  rw [current_moved]
  rfl

/-- A call among moved tokens goes as it did. -/
theorem Run.moved {limit : Nat} {call : Call} {o : Except SyntaxError Reading}
    (h : Run limit call o) (g : Nat → Nat) :
    Run limit (call.moved g) (relocated (Reading.moved g) g o) := by
  have hkind (s : Cursor) : (s.moved g).current.kind = s.current.kind := by simp
  -- whatever is stepped over is no end of input, so that nothing behind it has been dropped
  have hadvance {s : Cursor} {kind : Token.Kind} (hs : s.current.kind = kind)
      (hend : kind ≠ .endOfInput) : s.advance.moved g = (s.moved g).advance :=
    moved_advance g (hs ▸ hend)
  induction h with
  | @enterTooDeep s hs hd =>
    have run : Run limit (.term (s.moved g)) _ := .enterTooDeep (by simpa using hs) hd
    rwa [nestingTooDeep_moved] at run
  | @group s r hs hd _ hr ih =>
    have inner : Run limit (.expression 0 (s.moved g).advance.enter) (.ok (r.moved g)) :=
      hadvance hs (by simp) ▸ ih
    have run := Run.group ((hkind s).trans hs) hd inner ((hkind r.next).trans hr)
    rwa [Reading.moved, ← hadvance hr (by simp)] at run
  | @groupUnclosed s r hs hd _ hr ih =>
    have inner : Run limit (.expression 0 (s.moved g).advance.enter) (.ok (r.moved g)) :=
      hadvance hs (by simp) ▸ ih
    have hopen : (r.next.moved g).current.kind ≠ .rightParen := by rwa [hkind]
    have run := Run.groupUnclosed ((hkind s).trans hs) hd inner hopen
    rwa [Reading.moved, unexpected_moved] at run
  | @groupFails s e hs hd _ ih =>
    have inner : Run limit (.expression 0 (s.moved g).advance.enter) (.error (e.relocate g)) :=
      hadvance hs (by simp) ▸ ih
    exact .groupFails ((hkind s).trans hs) hd inner
  | @negation s r hs hd _ hh ih =>
    have operand : Run limit (.term (s.moved g).advance.enter) (.ok (r.moved g)) :=
      hadvance hs (by simp) ▸ ih
    exact .negation ((hkind s).trans hs) hd operand hh
  | @negationTooTall s r hs hd _ hh ih =>
    have operand : Run limit (.term (s.moved g).advance.enter) (.ok (r.moved g)) :=
      hadvance hs (by simp) ▸ ih
    have run := Run.negationTooTall ((hkind s).trans hs) hd operand hh
    rwa [nestingTooDeep_moved] at run
  | @negationFails s e hs hd _ ih =>
    have operand : Run limit (.term (s.moved g).advance.enter) (.error (e.relocate g)) :=
      hadvance hs (by simp) ▸ ih
    exact .negationFails ((hkind s).trans hs) hd operand
  | @condition s next q hs hq =>
    have hfield : fieldTerm (s.moved g) = .ok (q, next.moved g) := by
      rw [fieldTerm_moved g hs, hq]
      rfl
    exact .condition ((hkind s).trans hs) hfield
  | @conditionFails s e hs he =>
    have hfield : fieldTerm (s.moved g) = .error (e.relocate g) := by
      rw [fieldTerm_moved g hs, he]
      rfl
    exact .conditionFails ((hkind s).trans hs) hfield
  | @noTerm s hparen hnot hname =>
    have run : Run limit (.term (s.moved g)) _ := .noTerm (by rwa [hkind]) (by rwa [hkind])
      (by rwa [hkind])
    rwa [unexpected_moved] at run
  | expression _ _ ihf ihm => exact .expression ihf ihm
  | expressionFails _ ih => exact .expressionFails ih
  | @stop min left height s hs => exact .stop fun c hc => hs c ((hkind s).symm.trans hc)
  | @join min left height s c r o hs hc _ hh _ ihr ihm =>
    have right : Run limit (.expression (c.precedence + 1) (s.moved g).advance)
        (.ok (r.moved g)) := hadvance hs (by simp) ▸ ihr
    exact .join ((hkind s).trans hs) hc right hh ihm
  | @joinTooTall min left height s c r hs hc _ hh ih =>
    have right : Run limit (.expression (c.precedence + 1) (s.moved g).advance)
        (.ok (r.moved g)) := hadvance hs (by simp) ▸ ih
    have run : Run limit (.climb min left height (s.moved g)) _ :=
      .joinTooTall ((hkind s).trans hs) hc right hh
    rwa [nestingTooDeep_moved] at run
  | @joinFails min left height s c e hs hc _ ih =>
    have right : Run limit (.expression (c.precedence + 1) (s.moved g).advance)
        (.error (e.relocate g)) := hadvance hs (by simp) ▸ ih
    exact .joinFails ((hkind s).trans hs) hc right

end Query.Parser

/-! ## Whole queries -/

namespace Query

open FieldFilter.Query.Parser FieldFilter.Query.Parser.Cursor

/-- What has to follow a whole query does not depend on offsets. -/
theorem closed_moved (g : Nat → Nat) (r : Reading) :
    (r.moved g).closed = relocated id g r.closed := by
  by_cases h : r.next.current.kind = .endOfInput
  · have h' : (r.moved g).next.current.kind = .endOfInput := by simpa [Reading.moved] using h
    rw [Reading.closed, Reading.closed, if_pos h, if_pos h']
    rfl
  · have h' : (r.moved g).next.current.kind ≠ .endOfInput := by simpa [Reading.moved] using h
    rw [Reading.closed, Reading.closed, if_neg h, if_neg h', Reading.moved, unexpected_moved]
    rfl

/-- Parsing among moved tokens. -/
theorem run_moved_start (maxDepth : Nat) (tokens : List Token) (g : Nat → Nat) :
    ∃ o, Run (min maxDepth maxDepthLimit) (.expression 0 ((Cursor.start tokens).moved g)) o ∧
      relocated id g (ofTokens maxDepth tokens) = o >>= Reading.closed := by
  have run := run_outcome (min maxDepth maxDepthLimit) (.expression 0 (Cursor.start tokens))
  refine ⟨_, run.moved g, ?_⟩
  rw [ofTokens_eq_of_run run]
  cases (Call.expression 0 (Cursor.start tokens)).outcome (min maxDepth maxDepthLimit) with
  | error e => rfl
  | ok r => exact (closed_moved g r).symm

/-- A token list that has the tokens of another one, moved, through the end of input is parsed as
this one, and its errors are moved alike. -/
theorem ofTokens_of_ahead_eq {tokens tokens' : List Token} {g : Nat → Nat}
    (h : (Cursor.start tokens').ahead = (Cursor.start tokens).ahead.map (Token.relocate g))
    (maxDepth : Nat) :
    ofTokens maxDepth tokens' = relocated id g (ofTokens maxDepth tokens) := by
  have hsame : (Cursor.start tokens').moved id = (Cursor.start tokens).moved g := by
    rw [Cursor.moved, Cursor.moved, h, List.map_map]
    rfl
  obtain ⟨o, run, ho⟩ := run_moved_start maxDepth tokens g
  obtain ⟨o', run', ho'⟩ := run_moved_start maxDepth tokens' id
  rw [hsame] at run'
  obtain rfl := run.unique run'
  rw [ho, ← ho', relocated_id]

end Query

end FieldFilter
