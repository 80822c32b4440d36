import FieldFilter.Proofs.Query.Endings
import Mathlib.Control.Monad.Basic

/-!
# The bookkeeping of the parser

A call that works on books ends as it does as a function of its place, whatever the books are, and
nowhere on the way is the counter of groups and negations below its value at the start. So there is
always something to count down. Behind a call that succeeds the books are exact.

How many calls are active at once is bounded in two ways. Between two groups or negations at most
four calls are made: the right side of a connective is read one level tighter, and nothing is
tighter than `AND` but a term. And no three of the calls have the same number of tokens ahead.
-/

namespace FieldFilter.Query.Parser

/-! ## How many calls suffice -/

/-- A number of calls that suffices: four for each group or negation that may still be entered, and
those up to the next one, of which a tighter expression makes fewer; or else two for each token. -/
def Call.most (limit : Nat) : Call → Nat
  | term s => min (4 * (limit - s.depth) + 1) (2 * s.tokens.length + 1)
  | expression m s => min (4 * (limit - s.depth) + (3 - max m 1) + 2) (2 * s.tokens.length + 2)
  | climb m _ _ s => min (4 * (limit - s.depth) + (3 - max m 1) + 1) (2 * s.tokens.length)

section Most

variable {limit m n height height' : Nat} {left left' : Query} {s next : Cursor}

/-- Reading a term is a call. -/
theorem most_term_pos : 1 ≤ (Call.term s).most limit := by
  simp only [Call.most]
  omega

/-- A group uses up a level, so that the expression inside may start over with any connective. -/
theorem most_group (hs : s.current.kind ≠ .endOfInput) (hd : s.depth < limit) :
    (Call.expression 0 s.advance.enter).most limit + 1 ≤ (Call.term s).most limit := by
  have hlength := Cursor.length_advance_lt hs
  simp only [Call.most, Cursor.enter, Cursor.advance] at hlength ⊢
  omega

/-- A negation uses up a level, too. -/
theorem most_negation (hs : s.current.kind ≠ .endOfInput) (hd : s.depth < limit) :
    (Call.term s.advance.enter).most limit + 1 ≤ (Call.term s).most limit := by
  have hlength := Cursor.length_advance_lt hs
  simp only [Call.most, Cursor.enter, Cursor.advance] at hlength ⊢
  omega

/-- The first term of an expression is read inside one more call. -/
theorem most_first : (Call.term s).most limit + 1 ≤ (Call.expression m s).most limit := by
  simp only [Call.most]
  omega

/-- Joining happens inside the call that has read the first term. -/
theorem most_more (h : Consumes n s next) (hdepth : next.depth = s.depth) :
    (Call.climb m left height next).most limit + 1 ≤ (Call.expression m s).most limit := by
  have hlength := h.length_le
  simp only [Call.most, hdepth]
  omega

/-- A right side is read one level tighter, which makes up for the call of its reader. -/
theorem most_right {c : Connective} (hs : s.current.kind ≠ .endOfInput)
    (hc : m ≤ c.precedence) :
    (Call.expression (c.precedence + 1) s.advance).most limit ≤
      (Call.climb m left height s).most limit := by
  have hloosest : 1 ≤ c.precedence := by cases c <;> decide
  have htightest := c.precedence_le
  have hlength := Cursor.length_advance_lt hs
  simp only [Call.most, Cursor.advance] at hlength ⊢
  omega

/-- A round of the loop makes no call, and needs what the round before needed. -/
theorem most_again (h : Consumes n s.advance next) (hdepth : next.depth = s.depth) :
    (Call.climb m left' height' next).most limit ≤ (Call.climb m left height s).most limit := by
  have hlength := h.length_le
  have hsign := s.length_advance_le
  simp only [Call.most, hdepth]
  omega

end Most

/-! ## Whole calls -/

/-- A call as work on books that are open at its place, with a number of rounds for joining and an
allowance of calls. -/
def Call.booked (rounds : Nat) : Call → Nat → Booked (Query × Nat)
  | term _, calls => Booked.term calls
  | expression min _, calls => Booked.expression calls min
  | climb min left height _, calls =>
    Booked.climb (Booked.expression calls) min rounds left height

/-- How a call with an outcome ends on the books. There is a round of the loop for every token
ahead, and one more. -/
def Call.Ends (limit : Nat) (call : Call) (o : Except SyntaxError Reading) : Prop :=
  ∀ rounds, call.place.tokens.length < rounds →
    Booked.Ends call.place.depth (call.most limit) limit (call.booked rounds) call.place
      (o.map fun r => ((r.query, r.height), r.next))

section Ends

variable {limit most min : Nat} {s : Cursor} {o : Except SyntaxError Reading}

/-- Terms are not joined in rounds. -/
theorem ends_term (h : Booked.Ends s.depth most limit Booked.term s
      (o.map fun r => ((r.query, r.height), r.next)))
    (hmost : most ≤ (Call.term s).most limit) : (Call.term s).Ends limit o :=
  fun _ _ => h.weaken (Nat.le_refl _) hmost

/-- The first round of the loop is there in any case. -/
theorem ends_climb {left : Query} {height : Nat} (h : ∀ rounds, s.tokens.length ≤ rounds →
      Booked.Ends s.depth most limit
        (fun calls => Booked.climb (Booked.expression calls) min (rounds + 1) left height) s
        (o.map fun r => ((r.query, r.height), r.next)))
    (hmost : most ≤ (Call.climb min left height s).most limit) :
    (Call.climb min left height s).Ends limit o
  | 0, hrounds => absurd hrounds (Nat.not_lt_zero _)
  | rounds + 1, hrounds => (h rounds (Nat.le_of_lt_succ hrounds)).weaken (Nat.le_refl _) hmost

/-- How a term ends, without rounds. -/
theorem Call.Ends.of_term (h : (Call.term s).Ends limit o) :
    Booked.Ends s.depth ((Call.term s).most limit) limit Booked.term s
      (o.map fun r => ((r.query, r.height), r.next)) :=
  h _ (Nat.lt_succ_self _)

/-- How an expression ends, the rounds of which are its own affair. -/
theorem Call.Ends.of_expression (h : (Call.expression min s).Ends limit o) :
    Booked.Ends s.depth ((Call.expression min s).most limit) limit
      (fun calls => Booked.expression calls min) s
      (o.map fun r => ((r.query, r.height), r.next)) :=
  h _ (Nat.lt_succ_self _)

end Ends

open Booked in
/-- A call ends on the books as it does without them. -/
theorem ends_of_run {limit : Nat} {call : Call} {o : Except SyntaxError Reading}
    (h : Run limit call o) : call.Ends limit o := by
  have proper {s : Cursor} {kind : Token.Kind} (hs : s.current.kind = kind)
      (hkind : kind ≠ .endOfInput) : s.current.kind ≠ .endOfInput := hs ▸ hkind
  -- the allowance goes down with every call and is kept by the rounds of the loop
  induction h with
  | @enterTooDeep s hs hd =>
    have hends : Booked.Ends s.depth (0 + 1) limit Booked.term s
        (.error (.nestingTooDeep limit s.current.offset)) := by
      rcases hs with hs | hs
      · exact ends_term_of_leftParen hs (ends_open_tooDeep (proper hs (by simp)) hd _)
      · exact ends_term_of_not hs (ends_open_tooDeep (proper hs (by simp)) hd _)
    exact ends_term hends most_term_pos
  | group hs hd inner hr ih =>
    have hproper := proper hs (by simp)
    refine ends_term (ends_term_of_leftParen hs ?_) (most_group hproper hd)
    exact ends_group hproper hd ih.of_expression (depth_of_run inner) hr
  | groupUnclosed hs hd _ hr ih =>
    have hproper := proper hs (by simp)
    refine ends_term (ends_term_of_leftParen hs ?_) (most_group hproper hd)
    exact ends_group_unclosed hproper hd ih.of_expression hr
  | groupFails hs hd _ ih =>
    have hproper := proper hs (by simp)
    refine ends_term (ends_term_of_leftParen hs ?_) (most_group hproper hd)
    exact ends_open_fails hproper hd ih.of_expression _
  | negation hs hd operand hh ih =>
    have hproper := proper hs (by simp)
    refine ends_term (ends_term_of_not hs ?_) (most_negation hproper hd)
    exact ends_negation hproper hd ih.of_term (depth_of_run operand) hh
  | negationTooTall hs hd operand hh ih =>
    have hproper := proper hs (by simp)
    refine ends_term (ends_term_of_not hs ?_) (most_negation hproper hd)
    exact ends_negation_tooTall hproper hd ih.of_term (depth_of_run operand) hh
  | negationFails hs hd _ ih =>
    have hproper := proper hs (by simp)
    refine ends_term (ends_term_of_not hs ?_) (most_negation hproper hd)
    exact ends_open_fails hproper hd ih.of_term _
  | @condition s _ _ hs hq =>
    have hfield : Booked.Ends s.depth 0 limit (fun _ => Booked.fieldTerm) s (Parser.fieldTerm s) :=
      ends_fieldTerm hs (Nat.le_refl _)
    rw [hq] at hfield
    exact ends_term (ends_term_of_identifier hs (hfield.map fun q => (q, 0))) most_term_pos
  | @conditionFails s _ hs he =>
    have hfield : Booked.Ends s.depth 0 limit (fun _ => Booked.fieldTerm) s (Parser.fieldTerm s) :=
      ends_fieldTerm hs (Nat.le_refl _)
    rw [he] at hfield
    exact ends_term (ends_term_of_identifier hs (hfield.bind_error _)) most_term_pos
  | @noTerm s hparen hnot hname =>
    have hends : Booked.Ends s.depth (0 + 1) limit Booked.term s
        (.error (s.unexpected termStart)) := ends_term_of_not_start hparen hnot hname
    exact ends_term hends most_term_pos
  | @expression min s r o first _ ihf ihm =>
    have hdepth := depth_of_run first
    have hmore := ihm (r.next.tokens.length + 1) (Nat.lt_succ_self _)
    refine fun _ _ => Ends.weaken (ends_expression
      (ihf.of_term.weaken (Nat.le_refl _) (Nat.le_max_left _ _))
      (hmore.weaken (Nat.le_of_eq hdepth.symm) (Nat.le_max_right _ _))) (Nat.le_refl _) ?_
    exact Nat.max_lt.2 ⟨most_first, most_more (consumes_of_run first) hdepth⟩
  | expressionFails _ ih =>
    exact fun _ _ => (ends_expression_error ih.of_term).weaken (Nat.le_refl _) most_first
  | stop hs => exact ends_climb (fun _ _ => ends_climb_stop hs) (Nat.le_refl _)
  | @join _ _ _ s _ r _ hs hc right hh _ ihr ihm =>
    have hproper := proper hs (by simp)
    have hdepth := depth_of_run right
    have hconsumes := consumes_of_run right
    refine ends_climb (fun rounds hrounds => ?_) (Nat.le_refl _)
    have hleft : r.next.tokens.length < rounds := by
      have hsign := Cursor.length_advance_lt hproper
      have hlength : r.next.tokens.length + 3 ≤ s.advance.tokens.length := hconsumes.length_le
      omega
    refine ends_climb_of_connective hs hc (Booked.Ends.bind
      (ihr.of_expression.weaken (Nat.le_refl _) (most_right hproper hc)) ?_)
    exact (ends_grow hh _).bind
      ((ihm rounds hleft).weaken (Nat.le_of_eq hdepth.symm) (most_again hconsumes hdepth))
  | joinTooTall hs hc _ hh ih =>
    refine ends_climb (fun _ _ => ends_climb_of_connective hs hc (Booked.Ends.bind
      (ih.of_expression.weaken (Nat.le_refl _) (most_right (proper hs (by simp)) hc)) ?_))
      (Nat.le_refl _)
    exact (ends_grow_error hh _).bind_error _
  | joinFails hs hc _ ih =>
    exact ends_climb (fun _ _ => ends_climb_of_connective hs hc (Booked.Ends.bind_error
      (ih.of_expression.weaken (Nat.le_refl _) (most_right (proper hs (by simp)) hc)) _))
      (Nat.le_refl _)

end FieldFilter.Query.Parser

namespace FieldFilter.Query

open FieldFilter.Query.Parser

/-! ## Exact books -/

/-- The parts of a query that are read by calls of their own. -/
inductive Part where
  | term
  /-- Terms joined by connectives that bind at least as tightly as `min`. -/
  | expression (min : Nat)

/-- The call that reads a part from a place on. -/
def Part.call : Part → Cursor → Call
  | term, s => .term s
  | expression min, s => .expression min s

/-- The reader of a part, with an allowance of calls. -/
def Part.reader : Part → Nat → Booked (Query × Nat)
  | term, calls => Booked.term calls
  | expression min, calls => Booked.expression calls min

/-- The reading of a part as work on books, with as many calls allowed as can be needed. -/
def Part.booked (part : Part) : Booked (Query × Nat) := do
  part.reader (2 * (← Booked.here).tokens.length + 2)

/-- What holds behind a part that has been read from a place on. -/
structure Balanced (part : Part) (s : Cursor) (r : Reading) : Prop where
  /-- The height found is the height of the query. -/
  height : r.height = r.query.height
  /-- As many groups and negations have been left as were entered. -/
  depth : r.next.depth = s.depth
  /-- At least three tokens have been stepped over, and the others are left. -/
  tokens : ∃ read, s.tokens = read ++ r.next.tokens ∧ 3 ≤ read.length
  /-- No connective follows that an expression should have joined. -/
  stop : ∀ min, part = .expression min →
    ∀ c, r.next.current.kind = .connective c → c.precedence < min

/-- Behind a part that has been read everything is in balance. -/
theorem balanced_of_run {limit : Nat} {part : Part} {s : Cursor} {r : Reading}
    (h : Run limit (part.call s) (.ok r)) : Balanced part s r := by
  have tokens_of_consumes (h : Consumes 3 s r.next) :
      ∃ read, s.tokens = read ++ r.next.tokens ∧ 3 ≤ read.length := by
    obtain ⟨read, hread, hlength⟩ := h
    exact ⟨read, hread.tokens, hlength⟩
  cases part with
  | term =>
    exact ⟨height_of_run h trivial, depth_of_run h, tokens_of_consumes (consumes_of_run h),
      by simp⟩
  | expression min =>
    refine ⟨height_of_run h trivial, depth_of_run h, tokens_of_consumes (consumes_of_run h),
      fun min' hmin => ?_⟩
    cases hmin
    exact stopsAt_of_run h

/-- How the reading of a part ends, and that the calls allowed suffice. -/
theorem ends_part {limit : Nat} {part : Part} {s : Cursor} {o : Except SyntaxError Reading}
    (h : Run limit (part.call s) o) :
    Booked.Ends s.depth (2 * s.tokens.length + 2) limit part.reader s
      (o.map fun r => ((r.query, r.height), r.next)) := by
  cases part with
  | term =>
    refine (ends_of_run h).of_term.weaken (Nat.le_refl _) (Nat.le_trans (Nat.min_le_right _ _) ?_)
    exact Nat.le_succ _
  | expression min =>
    exact (ends_of_run h).of_expression.weaken (Nat.le_refl _) (Nat.min_le_right _ _)

/-- Whatever the books are, a call that reads a part of a query comes to an end, with the outcome
that it has without books. It leaves the limit as it is, and at no place on its way is the counter
below its value at the start, so that what is counted down has been counted. If the call succeeds,
the books are exact. -/
theorem bookkeeping_exact (part : Part) (books : Books) :
    ∃ after inside,
      part.booked.run.run books =
        some (((part.call books.place).outcome books.limit).map fun r => (r.query, r.height),
          after) ∧
      after.limit = books.limit ∧
      after.trace.depths = books.trace.depths ++ inside ∧ (∀ d ∈ inside, books.place.depth ≤ d) ∧
      ∀ r, (part.call books.place).outcome books.limit = .ok r →
        after.place = r.next ∧ Balanced part books.place r := by
  have run := run_outcome books.limit (part.call books.place)
  obtain ⟨t, place, hfits, hstop, hwork⟩ := ends_part run
  refine ⟨⟨place, books.limit, books.active, books.trace ++ t.inside books.active⟩, t.depths, ?_,
    rfl, rfl, hfits.floor_le, fun r hr => ?_⟩
  · have hrun := hwork (2 * books.place.tokens.length + 2) books.active books.trace
    rw [if_pos hfits.peak_le] at hrun
    rw [Part.booked, Booked.run_here_bind, hrun]
    cases (part.call books.place).outcome books.limit <;> rfl
  · rw [hr] at hstop
    exact ⟨hstop, balanced_of_run (run.of_eq hr)⟩

/-- A place inside a group, with `NOT (a:x) AND b:y` ahead. -/
def aheadOfNegation : Cursor := ⟨tokenize "NOT (a:x) AND b:y OR c:z", 24, 1⟩

/-- What is read there of connectives that bind at least as tightly as `AND`. -/
def negationRead : Reading where
  query := .join .and (.not (.leaf "a" (.equals (.identifier "x"))))
    (.leaf "b" (.equals (.identifier "y")))
  height := 2
  next := ⟨aheadOfNegation.tokens.drop 10, 24, 1⟩

/-- Under a limit of three, `NOT (a:x) AND b:y` is read up to the `OR` behind it. On the way the
counter goes up to three and comes back to one. -/
theorem bookkeeping_exact_negatedGroup :
    ((Part.expression 2).call aheadOfNegation).outcome 3 = .ok negationRead ∧
      (Part.expression 2).booked.run.run ⟨aheadOfNegation, 3, 2, {}⟩ =
        some (.ok (negationRead.query, 2), ⟨negationRead.next, 3, 2, {
          read := aheadOfNegation.tokens.take 10
          depths := [1, 2, 2, 3, 3, 3, 3, 3, 2, 1, 1, 1, 1, 1]
          calls := [3, 4, 5, 6, 7, 4, 5] }⟩) ∧
      Balanced (.expression 2) aheadOfNegation negationRead := by
  have hr : ((Part.expression 2).call aheadOfNegation).outcome 3 = .ok negationRead := by
    decide +kernel
  obtain ⟨_, _, _, _, _, _, hbalanced⟩ :=
    bookkeeping_exact (.expression 2) ⟨aheadOfNegation, 3, 2, {}⟩
  exact ⟨hr, by decide +kernel, (hbalanced negationRead hr).2⟩

/-! ## Whole queries -/

open Booked in
/-- A query ends with what is read of it, if the input does. -/
theorem ends_query {floor most limit : Nat} {s : Cursor} {o : Except SyntaxError Reading}
    (h : Ends floor most limit (fun calls => expression calls 0) s
      (o.map fun r => ((r.query, r.height), r.next))) :
    Ends floor most limit Booked.query s
      (o >>= fun r => r.closed.map fun q => (q, r.next)) := by
  cases o with
  | error e => exact h.bind_error _
  | ok r =>
    refine Ends.bind h ((ends_look r.next).bind ?_)
    by_cases hend : r.next.current.kind = .endOfInput
    · have hclosed : r.closed = .ok r.query := if_pos hend
      simp only [if_pos hend, bind, Except.bind, hclosed]
      exact ends_pure _ _
    · have hclosed : r.closed = .error (r.next.unexpected afterQuery) := if_neg hend
      simp only [if_neg hend, bind, Except.bind, hclosed]
      exact ends_refuse _ _

/-- A query stops at an end of input, and a failure at a token at which the error shows. -/
theorem stops_of_stopsAt_closed {place : Cursor} {o : Except SyntaxError Reading}
    (h : Booked.StopsAt place (o >>= fun r => r.closed.map fun q => (q, r.next))) :
    (∀ q, o >>= Reading.closed = .ok q → place.current.kind = .endOfInput) ∧
      ∀ e, o >>= Reading.closed = .error e → e.ShowsAt place.current := by
  cases o with
  | error e =>
    refine ⟨fun _ hq => (by cases hq), fun e' he => ?_⟩
    obtain rfl := Except.error.inj he
    exact h
  | ok r =>
    simp only [bind, Except.bind] at h ⊢
    by_cases hend : r.next.current.kind = .endOfInput
    · have hclosed : r.closed = .ok r.query := if_pos hend
      rw [hclosed] at h ⊢
      obtain rfl : place = r.next := h
      exact ⟨fun _ _ => hend, fun _ he => (by cases he)⟩
    · have hclosed : r.closed = .error (r.next.unexpected afterQuery) := if_neg hend
      rw [hclosed] at h ⊢
      refine ⟨fun _ hq => (by cases hq), fun e he => ?_⟩
      obtain rfl := Except.error.inj he
      exact h

private theorem map_fst_closed (o : Except SyntaxError Reading) :
    (o >>= fun r => r.closed.map fun q => (q, r.next)).map Prod.fst = o >>= Reading.closed := by
  cases o with
  | error e => rfl
  | ok r =>
    simp only [bind, Except.bind]
    cases r.closed <;> rfl

/-- What parsing a token list on books of its own comes to. If enough calls are allowed, it ends as
it does without books, at an end of input or at a token at which its error shows. -/
theorem report_eq (maxDepth : Nat) (tokens : List Token) :
    ∃ place,
      (traceOf maxDepth tokens).Fits 0
        ((Call.expression 0 (Cursor.start tokens)).most (min maxDepth maxDepthLimit))
        (Cursor.start tokens) place ∧
      (∀ q, ofTokens maxDepth tokens = .ok q → place.current.kind = .endOfInput) ∧
      (∀ e, ofTokens maxDepth tokens = .error e → e.ShowsAt place.current) ∧
      ∀ calls, report calls maxDepth tokens =
        if mostCalls maxDepth tokens ≤ calls then
          some (ofTokens maxDepth tokens,
            ⟨place, min maxDepth maxDepthLimit, 0, traceOf maxDepth tokens⟩)
        else none := by
  have run := run_outcome (min maxDepth maxDepthLimit) (.expression 0 (Cursor.start tokens))
  obtain ⟨t, place, hfits, hstop, hwork⟩ := ends_query (ends_of_run run).of_expression
  obtain ⟨hok, herror⟩ := stops_of_stopsAt_closed hstop
  rw [← ofTokens_eq_of_run run] at hok herror
  have hreport (calls : Nat) : report calls maxDepth tokens =
      if t.peak ≤ calls then
        some (ofTokens maxDepth tokens, ⟨place, min maxDepth maxDepthLimit, 0, t⟩)
      else none := by
    have hcalls := hwork calls 0 {}
    rw [Trace.inside_zero, Trace.empty_append] at hcalls
    refine hcalls.trans ?_
    rw [ofTokens_eq_of_run run, ← map_fst_closed]
  have htrace : traceOf maxDepth tokens = t := by
    have hpeak : t.peak ≤ 2 * tokens.length + 2 :=
      Nat.le_trans hfits.peak_le (Nat.min_le_right _ _)
    rw [traceOf, hreport, if_pos hpeak]
    rfl
  rw [mostCalls, htrace]
  exact ⟨place, hfits, hok, herror, hreport⟩

end FieldFilter.Query
