import FieldFilter.Proofs.Query.Books
import FieldFilter.Proofs.Query.Readings

/-!
# How work on the books ends

Work that starts at a place ends with an outcome, at the place to which this belongs, and leaves a
record. The record is the same on all books and with all allowances that suffice: only those calls
that were active before are counted in. An allowance suffices exactly if as many calls are never
exceeded, and otherwise the work gets stuck.
-/

namespace FieldFilter

/-- An error shows at the token at which the parser stops. One of depth may show further back. -/
def SyntaxError.ShowsAt (t : Token) : SyntaxError → Prop
  | nestingTooDeep .. => True
  | e => e.offset = t.offset

namespace Query.Parser

/-- A token that does not fit is where the error shows. -/
theorem showsAt_misfit (expected : List Token.Kind) (t : Token) :
    (t.misfit expected).ShowsAt t := by
  unfold Token.misfit
  split <;> rfl

/-- A token that is no value is where the error shows. -/
theorem showsAt_valueError (t : Token) : t.valueError.ShowsAt t := by
  unfold Token.valueError
  split
  · rfl
  · exact showsAt_misfit _ t

/-! ## Records of stretches -/

/-- A record fits a stretch between two places: it tells the tokens stepped over, the counter is
nowhere below a floor, and there are never more calls active at once than so many. -/
structure Trace.Fits (floor most : Nat) (s next : Cursor) (t : Trace) : Prop where
  read : StepsOver t.read s next
  floor_le : ∀ d ∈ t.depths, floor ≤ d
  peak_le : t.peak ≤ most

namespace Trace.Fits

variable {floor floor' most most' : Nat} {s mid next : Cursor} {t t' : Trace}

/-- Where nothing happens, there is nothing on record. -/
theorem empty (s : Cursor) : Trace.Fits floor most s s {} :=
  ⟨.nil s, by simp, Nat.zero_le _⟩

/-- Going to a place leaves its depth on record, and the tokens on the way. -/
theorem goTo {read : List Token} (h : StepsOver read s next) (hfloor : floor ≤ next.depth) :
    Trace.Fits floor most s next { read := read, depths := [next.depth] } :=
  ⟨h, by simpa using hfloor, Nat.zero_le _⟩

/-- The record of one stretch, followed by that of the next one. -/
theorem append (h : t.Fits floor most s mid) (h' : t'.Fits floor most mid next) :
    (t ++ t').Fits floor most s next where
  read := h.read.append h'.read
  floor_le := List.forall_mem_append.2 ⟨h.floor_le, h'.floor_le⟩
  peak_le := by
    rw [peak_append]
    exact Nat.max_le.2 ⟨h.peak_le, h'.peak_le⟩

/-- A floor may be lower, and there may be room for more calls. -/
theorem weaken (h : t.Fits floor most s next) (hfloor : floor' ≤ floor) (hmost : most ≤ most') :
    t.Fits floor' most' s next :=
  ⟨h.read, fun d hd => Nat.le_trans hfloor (h.floor_le d hd), Nat.le_trans h.peak_le hmost⟩

/-- A call makes room for one more. -/
theorem called (h : t.Fits floor most s next) :
    (({ calls := [1] } : Trace) ++ t.inside 1).Fits floor (most + 1) s next where
  read := h.read
  floor_le := h.floor_le
  peak_le := by
    rw [peak_called]
    exact Nat.succ_le_succ h.peak_le

end Trace.Fits

namespace Booked

/-! ## Endings -/

/-- Where work stops: behind its result, or at a token at which its error shows. -/
def StopsAt {α : Type} (place : Cursor) : Except SyntaxError (α × Cursor) → Prop
  | .ok r => place = r.2
  | .error e => e.ShowsAt place.current

/-- From a place, under a limit, the work ends with an outcome if enough calls are allowed, and
leaves a record that fits the way. With fewer calls it gets stuck. The limit stays, and all calls
made are over. -/
def Ends {α : Type} (floor most limit : Nat) (work : Nat → Booked α) (s : Cursor)
    (o : Except SyntaxError (α × Cursor)) : Prop :=
  ∃ t place, Trace.Fits floor most s place t ∧ StopsAt place o ∧
    ∀ calls active trace, (work calls).run.run ⟨s, limit, active, trace⟩ =
      if t.peak ≤ calls then
        some (o.map Prod.fst, ⟨place, limit, active, trace ++ t.inside active⟩)
      else none

variable {α β : Type} {floor floor' most most' limit offset : Nat} {work : Nat → Booked α}
  {s next : Cursor} {a : α} {e : SyntaxError}

/-- Work that goes nowhere. -/
theorem ends_of_run_eq {work : Booked α} {o : Except SyntaxError (α × Cursor)}
    (h : ∀ active trace, work.run.run ⟨s, limit, active, trace⟩ =
      some (o.map Prod.fst, ⟨s, limit, active, trace⟩))
    (hstop : StopsAt s o) : Ends floor most limit (fun _ => work) s o := by
  refine ⟨{}, s, .empty s, hstop, fun calls active trace => ?_⟩
  have htrace : trace ++ Trace.inside active {} = trace := Trace.append_empty trace
  rw [htrace, if_pos (show ({} : Trace).peak ≤ calls from Nat.zero_le calls)]
  exact h active trace

/-- A result that needs no work is there at once. -/
theorem ends_pure (a : α) (s : Cursor) :
    Ends floor most limit (fun _ => pure a) s (.ok (a, s)) :=
  ends_of_run_eq (fun _ _ => rfl) rfl

/-- An error ends the work where it is, if it shows there. -/
theorem ends_throw (h : e.ShowsAt s.current) :
    Ends floor most limit (fun _ => (throw e : Booked α)) s (.error e) :=
  ends_of_run_eq (fun _ _ => rfl) h

/-- One piece of work after the other. Both have the same allowance. -/
theorem Ends.bind {o : Except SyntaxError (β × Cursor)} {more : Nat → α → Booked β}
    (h : Ends floor most limit work s (.ok (a, next)))
    (h' : Ends floor most limit (fun calls => more calls a) next o) :
    Ends floor most limit (fun calls => work calls >>= more calls) s o := by
  obtain ⟨t, place, hfits, hstop, hwork⟩ := h
  obtain rfl : place = next := hstop
  obtain ⟨t', place', hfits', hstop', hmore⟩ := h'
  refine ⟨t ++ t', place', hfits.append hfits', hstop', fun calls active trace => ?_⟩
  rw [ExceptT.run_bind, StateT.run_bind, hwork, Trace.peak_append, Trace.inside_append,
    ← Trace.append_assoc]
  by_cases hcalls : t.peak ≤ calls
  · rw [if_pos hcalls]
    simp only [Nat.max_le, hcalls, true_and]
    exact hmore calls active (trace ++ t.inside active)
  · rw [if_neg hcalls, if_neg fun h => hcalls (Nat.max_le.1 h).1]
    rfl

/-- An error ends all the work. -/
theorem Ends.bind_error (h : Ends floor most limit work s (.error e))
    (more : Nat → α → Booked β) :
    Ends floor most limit (fun calls => work calls >>= more calls) s (.error e) := by
  obtain ⟨t, place, hfits, hstop, hwork⟩ := h
  refine ⟨t, place, hfits, hstop, fun calls active trace => ?_⟩
  rw [ExceptT.run_bind, StateT.run_bind, hwork]
  by_cases hcalls : t.peak ≤ calls
  · rw [if_pos hcalls, if_pos hcalls]
    rfl
  · rw [if_neg hcalls, if_neg hcalls]
    rfl

/-- What is made of a result is no work. -/
theorem Ends.map {o : Except SyntaxError (α × Cursor)} (h : Ends floor most limit work s o)
    (f : α → β) :
    Ends floor most limit (fun calls => do return f (← work calls)) s
      (o.map fun (a, next) => (f a, next)) := by
  cases o with
  | error e => exact h.bind_error _
  | ok r => exact h.bind (ends_pure (f r.1) r.2)

/-- What stays above a floor stays above any lower one, and if so many calls suffice, more do. -/
theorem Ends.weaken {o : Except SyntaxError (α × Cursor)} (h : Ends floor most limit work s o)
    (hfloor : floor' ≤ floor) (hmost : most ≤ most') : Ends floor' most' limit work s o := by
  obtain ⟨t, place, hfits, hstop, hwork⟩ := h
  exact ⟨t, place, hfits.weaken hfloor hmost, hstop, hwork⟩

/-- How work inside a call runs. -/
theorem run_called (work : Booked α) (s : Cursor) (limit active : Nat) (trace : Trace) :
    (called work).run.run ⟨s, limit, active, trace⟩ =
      (work.run.run ⟨s, limit, active + 1, trace ++ { calls := [active + 1] }⟩ >>=
        fun (o, after) => some (o, { after with active := after.active - 1 })) :=
  rfl

/-- Work inside a call takes one call more, and is stuck where there is none. -/
theorem Ends.called {o : Except SyntaxError (α × Cursor)} {work' : Nat → Booked α}
    (h : Ends floor most limit work s o) (hzero : work' 0 = stuck)
    (hsucc : ∀ calls, work' (calls + 1) = Booked.called (work calls)) :
    Ends floor (most + 1) limit work' s o := by
  obtain ⟨t, place, hfits, hstop, hwork⟩ := h
  refine ⟨_, place, hfits.called, hstop, fun calls active trace => ?_⟩
  rw [Trace.peak_called, Trace.inside_called, ← Trace.append_assoc]
  cases calls with
  | zero =>
    rw [hzero, if_neg (Nat.not_succ_le_zero _)]
    rfl
  | succ calls =>
    rw [hsucc, run_called, hwork]
    simp only [Nat.add_le_add_iff_right]
    split <;> rfl

/-! ## How steps end -/

/-- Work can be chosen by the place at which it starts. -/
theorem run_here_bind (work : Cursor → Booked α) (books : Books) :
    (here >>= work).run.run books = (work books.place).run.run books :=
  rfl

private theorem ends_here (s : Cursor) : Ends floor most limit (fun _ => here) s (.ok (s, s)) :=
  ends_of_run_eq (fun _ _ => rfl) rfl

private theorem ends_bound (s : Cursor) :
    Ends floor most limit (fun _ => bound) s (.ok (limit, s)) :=
  ends_of_run_eq (fun _ _ => rfl) rfl

private theorem ends_goTo {read : List Token} (h : StepsOver read s next)
    (hfloor : floor ≤ next.depth) :
    Ends floor most limit (fun _ => goTo next read) s (.ok ((), next)) := by
  let t : Trace := { read := read, depths := [next.depth] }
  exact ⟨t, next, .goTo h hfloor, rfl, fun calls active trace =>
    (if_pos (show t.peak ≤ calls from Nat.zero_le calls)).symm⟩

/-- Looking at the current token goes nowhere. -/
theorem ends_look (s : Cursor) :
    Ends floor most limit (fun _ => look) s (.ok (s.current, s)) :=
  (ends_here s).map Cursor.current

/-- Only an end of input is never stepped over. -/
theorem ends_bump (hs : s.current.kind ≠ .endOfInput) (hfloor : floor ≤ s.depth) :
    Ends floor most limit (fun _ => bump) s (.ok (s.current, s.advance)) :=
  (ends_here s).bind ((ends_goTo (.one hs) hfloor).bind (ends_pure _ _))

/-- The work ends at a token that is none of those expected. -/
theorem ends_refuse (expected : List Token.Kind) (s : Cursor) :
    Ends floor most limit (fun _ => (refuse expected : Booked α)) s
      (.error (s.unexpected expected)) :=
  (ends_here s).bind (ends_throw (showsAt_misfit _ _))

/-- A depth within the limit is let pass. -/
theorem ends_check {depth : Nat} (h : depth ≤ limit) (s : Cursor) :
    Ends floor most limit (fun _ => check depth offset) s (.ok ((), s)) := by
  refine (ends_bound s).bind ?_
  rw [if_neg (Nat.not_lt.2 h)]
  exact ends_pure () s

/-- A depth beyond the limit ends the work. -/
theorem ends_check_error {depth : Nat} (h : limit < depth) (s : Cursor) :
    Ends floor most limit (fun _ => check depth offset) s
      (.error (.nestingTooDeep limit offset)) := by
  refine (ends_bound s).bind ?_
  rw [if_pos h]
  exact ends_throw trivial

/-- Below the limit one more group or negation can be entered. -/
theorem ends_enter (s : Cursor) (hfloor : floor ≤ s.depth) (hd : s.depth < limit) :
    Ends floor most limit (fun _ => enter offset) s (.ok ((), s.enter)) :=
  (ends_here s).bind
    ((ends_goTo (.enter s) (Nat.le_succ_of_le hfloor)).bind (ends_check hd s.enter))

/-- At the limit no more groups and negations can be entered, although the counter has gone up. -/
theorem ends_enter_error (s : Cursor) (hfloor : floor ≤ s.depth) (hd : limit ≤ s.depth) :
    Ends floor most limit (fun _ => enter offset) s (.error (.nestingTooDeep limit offset)) :=
  (ends_here s).bind ((ends_goTo (.enter s) (Nat.le_succ_of_le hfloor)).bind
    (ends_check_error (Nat.lt_succ_of_le hd) s.enter))

/-- Above the floor there is something to count down. -/
theorem ends_leave (s : Cursor) (h : floor < s.depth) :
    Ends floor most limit (fun _ => leave) s (.ok ((), s.leave)) := by
  refine (ends_here s).bind ?_
  simp only [if_neg (Nat.ne_of_gt (Nat.zero_lt_of_lt h))]
  exact ends_goTo (.leave s) (Nat.le_sub_one_of_lt h)

/-- Below the limit a node can be put on top. -/
theorem ends_grow {height : Nat} (h : height < limit) (s : Cursor) :
    Ends floor most limit (fun _ => grow height offset) s (.ok (height + 1, s)) :=
  (ends_check h s).bind (ends_pure _ s)

/-- At the limit no node can be put on top. -/
theorem ends_grow_error {height : Nat} (h : limit ≤ height) (s : Cursor) :
    Ends floor most limit (fun _ => grow height offset) s
      (.error (.nestingTooDeep limit offset)) :=
  (ends_check_error (Nat.lt_succ_of_le h) s).bind_error _

/-! ## How conditions end -/

/-- A value is read from the books as from the place. -/
theorem ends_value (s : Cursor) (hfloor : floor ≤ s.depth) :
    Ends floor most limit (fun _ => value) s (Parser.value s) := by
  refine (ends_here s).bind ?_
  cases hv : s.current.value? with
  | none =>
    simp only [value_eq_error hv]
    exact ends_throw (showsAt_valueError _)
  | some v =>
    simp only [value_eq_ok hv]
    exact (ends_bump (ne_endOfInput_of_value? hv) hfloor).bind (ends_pure v _)

/-- A condition is read from the books as from the place. -/
theorem ends_condition (s : Cursor) (hfloor : floor ≤ s.depth) :
    Ends floor most limit (fun _ => condition) s (Parser.condition s) := by
  refine (ends_look s).bind ?_
  rcases condition_cases s with hk | ⟨op, hk⟩ | hk | ⟨hquoted, hcomparison, hvalue⟩
  · rw [condition_of_quoted hk]
    simp only [hk]
    exact (ends_bump (by simp [hk]) hfloor).map _
  · rw [condition_of_comparison hk]
    simp only [hk]
    exact (ends_bump (by simp [hk]) hfloor).bind
      ((ends_value s.advance hfloor).map (Condition.compares op))
  · split
    · simp_all [Token.Kind.isValue]
    · simp_all [Token.Kind.isValue]
    simp only [if_pos hk]
    have hlower : Ends floor most limit (fun _ => value) s (Parser.value s) :=
      ends_value s hfloor
    cases hv : s.current.value? with
    | none =>
      rw [condition_of_value?_eq_none hk hv]
      rw [value_eq_error hv] at hlower
      exact hlower.bind_error _
    | some v =>
      rw [condition_of_value (value_eq_ok hv)]
      rw [value_eq_ok hv] at hlower
      refine hlower.bind ((ends_look s.advance).bind ?_)
      by_cases hdots : s.advance.current.kind = .dots
      · simp only [if_pos hdots]
        have hupper : Ends floor most limit (fun _ => value) s.advance.advance
            (Parser.value s.advance.advance) := ends_value _ hfloor
        exact (ends_bump (s := s.advance) (by simp [hdots]) hfloor).bind
          (hupper.map fun upper => Condition.within ⟨v, upper⟩)
      · simp only [if_neg hdots]
        exact ends_pure _ _
  · rw [condition_of_not_start hquoted hcomparison hvalue]
    split
    · exact absurd ‹_› hquoted
    · exact absurd ‹_› (hcomparison _)
    · simp only [hvalue]
      exact ends_refuse _ s

/-- A condition on a field is read from the books as from the place. -/
theorem ends_fieldTerm (hs : s.current.kind = .identifier) (hfloor : floor ≤ s.depth) :
    Ends floor most limit (fun _ => fieldTerm) s (Parser.fieldTerm s) := by
  refine (ends_bump (by simp [hs]) hfloor).bind ((ends_look s.advance).bind ?_)
  by_cases hcolon : s.advance.current.kind = .colon
  · simp only [if_pos hcolon]
    rw [fieldTerm_of_colon hcolon]
    have hcondition : Ends floor most limit (fun _ => condition) s.advance.advance
        (Parser.condition s.advance.advance) := ends_condition _ hfloor
    exact (ends_bump (s := s.advance) (by simp [hcolon]) hfloor).bind
      (hcondition.map (leaf s.current.text))
  · simp only [if_neg hcolon]
    rw [fieldTerm_of_not_colon hcolon]
    exact ends_refuse _ _

/-! ## How groups and negations end -/

section Groups

variable {inside operand : Nat → Booked (Query × Nat)} {found : Query × Nat} {q : Query}
  {height : Nat}

/-- Groups and negations have a common beginning: the token that opens them is stepped over, and
then they are entered. What is inside stays above a floor that is one higher, which leaves room for
counting down once. -/
theorem ends_open (hs : s.current.kind ≠ .endOfInput) (hd : s.depth < limit)
    {work : Nat → Booked β} {b : β} {more : Nat → Token → β → Booked α}
    {o : Except SyntaxError (α × Cursor)}
    (h : Ends (s.depth + 1) most limit work s.advance.enter (.ok (b, next)))
    (h' : Ends s.depth most limit (fun calls => more calls s.current b) next o) :
    Ends s.depth most limit
      (fun calls => do
        let token ← bump
        enter token.offset
        let b ← work calls
        more calls token b) s o := by
  have hinside := (h.weaken (Nat.le_succ _) (Nat.le_refl _)).bind h'
  exact (ends_bump hs (Nat.le_refl _)).bind
    ((ends_enter s.advance (Nat.le_refl _) hd).bind hinside)

/-- A group or a negation fails with what is inside. -/
theorem ends_open_fails (hs : s.current.kind ≠ .endOfInput) (hd : s.depth < limit)
    {work : Nat → Booked β} (h : Ends (s.depth + 1) most limit work s.advance.enter (.error e))
    (more : Nat → Token → β → Booked α) :
    Ends s.depth most limit
      (fun calls => do
        let token ← bump
        enter token.offset
        let b ← work calls
        more calls token b) s (.error e) := by
  have hinside := (h.weaken (Nat.le_succ _) (Nat.le_refl _)).bind_error
    fun calls b => more calls s.current b
  exact (ends_bump hs (Nat.le_refl _)).bind
    ((ends_enter s.advance (Nat.le_refl _) hd).bind hinside)

/-- At the limit the work ends behind the token that opens a group or a negation. -/
theorem ends_open_tooDeep (hs : s.current.kind ≠ .endOfInput) (hd : limit ≤ s.depth)
    (more : Nat → Token → Booked α) :
    Ends s.depth most limit
      (fun calls => do
        let token ← bump
        enter token.offset
        more calls token) s (.error (.nestingTooDeep limit s.current.offset)) :=
  (ends_bump hs (Nat.le_refl _)).bind
    ((ends_enter_error s.advance (Nat.le_refl _) hd).bind_error _)

/-- A group ends behind its closing parenthesis. -/
theorem ends_group (hs : s.current.kind ≠ .endOfInput) (hd : s.depth < limit)
    (h : Ends (s.depth + 1) most limit inside s.advance.enter (.ok (found, next)))
    (hdepth : next.depth = s.depth + 1) (hnext : next.current.kind = .rightParen) :
    Ends s.depth most limit (fun calls => group (inside calls)) s
      (.ok (found, next.advance.leave)) := by
  refine ends_open hs hd h ((ends_look next).bind ?_)
  simp only [if_pos hnext]
  refine (ends_bump (by simp [hnext]) (hdepth ▸ Nat.le_succ _)).bind ?_
  exact (ends_leave next.advance (hdepth ▸ Nat.lt_succ_self _)).bind (ends_pure _ _)

/-- A group has to be closed. -/
theorem ends_group_unclosed (hs : s.current.kind ≠ .endOfInput) (hd : s.depth < limit)
    (h : Ends (s.depth + 1) most limit inside s.advance.enter (.ok (found, next)))
    (hnext : next.current.kind ≠ .rightParen) :
    Ends s.depth most limit (fun calls => group (inside calls)) s
      (.error (next.unexpected afterGroup)) := by
  refine ends_open hs hd h ((ends_look next).bind ?_)
  simp only [if_neg hnext]
  exact ends_refuse _ next

/-- A negation ends where its operand ends. -/
theorem ends_negation (hs : s.current.kind ≠ .endOfInput) (hd : s.depth < limit)
    (h : Ends (s.depth + 1) most limit operand s.advance.enter (.ok ((q, height), next)))
    (hdepth : next.depth = s.depth + 1) (hh : height < limit) :
    Ends s.depth most limit (fun calls => negation (operand calls)) s
      (.ok ((.not q, height + 1), next.leave)) := by
  refine ends_open hs hd h ((ends_leave next (hdepth ▸ Nat.lt_succ_self _)).bind ?_)
  exact (ends_grow hh _).bind (ends_pure _ _)

/-- A negation fails if its operand is as tall as the limit allows. -/
theorem ends_negation_tooTall (hs : s.current.kind ≠ .endOfInput) (hd : s.depth < limit)
    (h : Ends (s.depth + 1) most limit operand s.advance.enter (.ok ((q, height), next)))
    (hdepth : next.depth = s.depth + 1) (hh : limit ≤ height) :
    Ends s.depth most limit (fun calls => negation (operand calls)) s
      (.error (.nestingTooDeep limit s.current.offset)) := by
  refine ends_open hs hd h ((ends_leave next (hdepth ▸ Nat.lt_succ_self _)).bind ?_)
  exact (ends_grow_error hh _).bind_error _

end Groups

/-! ## How the other readers end -/

section Readers

variable {min height rounds : Nat} {left : Query} {operand : Nat → Nat → Booked (Query × Nat)}
  {o : Except SyntaxError ((Query × Nat) × Cursor)}

/-- At a parenthesis a term is a group, and reading the term is one more call. -/
theorem ends_term_of_leftParen (hs : s.current.kind = .leftParen)
    (h : Ends floor most limit (fun calls => group (expression calls 0)) s o) :
    Ends floor (most + 1) limit term s o := by
  refine Ends.called ((ends_look s).bind ?_) rfl fun _ => rfl
  simp only [hs]
  exact h

/-- At a `NOT` a term is a negation, and reading the term is one more call. -/
theorem ends_term_of_not (hs : s.current.kind = .not)
    (h : Ends floor most limit (fun calls => negation (term calls)) s o) :
    Ends floor (most + 1) limit term s o := by
  refine Ends.called ((ends_look s).bind ?_) rfl fun _ => rfl
  simp only [hs]
  exact h

/-- At a name a term is a condition on a field, and reading the term is one call. -/
theorem ends_term_of_identifier (hs : s.current.kind = .identifier)
    (h : Ends floor most limit (fun _ => do return (← fieldTerm, 0)) s o) :
    Ends floor (most + 1) limit term s o := by
  refine Ends.called ((ends_look s).bind ?_) rfl fun _ => rfl
  simp only [hs]
  exact h

/-- At any other token there is no term. -/
theorem ends_term_of_not_start (hparen : s.current.kind ≠ .leftParen)
    (hnot : s.current.kind ≠ .not) (hname : s.current.kind ≠ .identifier) :
    Ends floor (most + 1) limit term s (.error (s.unexpected termStart)) := by
  refine Ends.called ((ends_look s).bind ?_) rfl fun _ => rfl
  split
  · exact absurd ‹_› hparen
  · exact absurd ‹_› hnot
  · exact absurd ‹_› hname
  · exact ends_refuse _ _

/-- An expression is a term and what is joined to it, and reading it is one more call. -/
theorem ends_expression {found : Query × Nat}
    (h : Ends floor most limit term s (.ok (found, next)))
    (h' : Ends floor most limit
      (fun calls => climb (expression calls) min (next.tokens.length + 1) found.1 found.2) next o) :
    Ends floor (most + 1) limit (fun calls => expression calls min) s o := by
  refine Ends.called (h.bind ((ends_here next).bind ?_)) rfl fun _ => rfl
  exact h'

/-- An expression fails with its first term. -/
theorem ends_expression_error (h : Ends floor most limit term s (.error e)) :
    Ends floor (most + 1) limit (fun calls => expression calls min) s (.error e) :=
  Ends.called (h.bind_error _) rfl fun _ => rfl

/-- The loop ends in front of a connective that is not tight enough, or of none. -/
theorem ends_climb_stop (hs : ∀ c, s.current.kind = .connective c → c.precedence < min) :
    Ends floor most limit (fun calls => climb (operand calls) min (rounds + 1) left height) s
      (.ok ((left, height), s)) := by
  refine (ends_look s).bind ?_
  split
  · rename_i c hc
    simp only [if_pos (hs c hc)]
    exact ends_pure _ _
  · exact ends_pure _ _

/-- In front of a connective that is tight enough, a round of the loop steps over it, reads the
right side and goes on with the joined query. -/
theorem ends_climb_of_connective {c : Connective} (hs : s.current.kind = .connective c)
    (hc : min ≤ c.precedence)
    (h : Ends s.depth most limit (fun calls => do
      let (right, rightHeight) ← operand calls (c.precedence + 1)
      let taller ← grow (max height rightHeight) s.current.offset
      climb (operand calls) min rounds (.join c left right) taller) s.advance o) :
    Ends s.depth most limit
      (fun calls => climb (operand calls) min (rounds + 1) left height) s o := by
  refine (ends_look s).bind ?_
  simp only [hs, if_neg (Nat.not_lt.2 hc)]
  exact (ends_bump (by simp [hs]) (Nat.le_refl _)).bind h

end Readers

end Booked

end Query.Parser

end FieldFilter
