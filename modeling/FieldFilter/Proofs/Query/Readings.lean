import FieldFilter.Proofs.Query.Lookahead

/-!
# What a call leaves behind

A call that succeeds yields a query with its height and leaves a place in the token list. The height
is found on the way and is the one of the query. As many groups and negations have been left as were
entered. Some tokens have been stepped over, none of them an end of input, and three of them at
least where a term has been read; and no connective follows that should have been joined.
-/

namespace FieldFilter.Query.Parser

/-! ## Heights -/

/-- A condition that is read on a field leaves the depth and the supplied end of input as they
were. -/
theorem eq_of_fieldTerm {s next : Cursor} {q : Query} (h : fieldTerm s = .ok (q, next)) :
    q.height = 0 ∧ next.depth = s.depth ∧ next.finish = s.finish := by
  by_cases hcolon : s.advance.current.kind = .colon
  · rw [fieldTerm_of_colon hcolon] at h
    cases hc : condition s.advance.advance with
    | error e =>
      rw [hc] at h
      cases h
    | ok r =>
      obtain ⟨_, _, _, hnext⟩ := spelledBy_of_condition hc
      rw [hc] at h
      cases h
      rw [hnext]
      exact ⟨rfl, rfl, rfl⟩
  · rw [fieldTerm_of_not_colon hcolon] at h
    cases h

/-- A call is told the height of the query to which it joins. -/
def Call.Measured : Call → Prop
  | climb _ left height _ => height = left.height
  | _ => True

/-- The height that is found is the height of the query. -/
theorem height_of_run {limit : Nat} {call : Call} {r : Reading} (h : Run limit call (.ok r))
    (hcall : call.Measured) : r.height = r.query.height := by
  generalize ho : Except.ok r = o at h
  induction h generalizing r with
  | @group s inner _ _ _ _ ih =>
    cases ho
    exact show inner.height = inner.query.height from ih trivial rfl
  | @negation s operand _ _ _ _ ih =>
    cases ho
    have hoperand : operand.height = operand.query.height := ih trivial rfl
    exact congrArg (· + 1) hoperand
  | condition _ hq =>
    cases ho
    exact (eq_of_fieldTerm hq).1.symm
  | expression _ _ ihf ihm =>
    subst ho
    exact ihm (ihf trivial rfl) rfl
  | stop =>
    cases ho
    exact hcall
  | @join min left height s c right o _ _ _ _ _ ihr ihm =>
    subst ho
    have hleft : height = left.height := hcall
    have hright : right.height = right.query.height := ihr trivial rfl
    refine ihm ?_ rfl
    show max height right.height + 1 = max left.height right.query.height + 1
    rw [hleft, hright]
  | enterTooDeep | groupUnclosed | groupFails | negationTooTall | negationFails | conditionFails
  | noTerm | expressionFails | joinTooTall | joinFails => cases ho

/-! ## Depths -/

/-- A call that succeeds leaves as many groups and negations as it enters. -/
theorem depth_of_run {limit : Nat} {call : Call} {r : Reading} (h : Run limit call (.ok r)) :
    r.next.depth = call.place.depth := by
  generalize ho : Except.ok r = o at h
  induction h generalizing r with
  | group _ _ _ _ ih | negation _ _ _ _ ih =>
    cases ho
    exact congrArg (· - 1) (ih rfl)
  | condition _ hq =>
    cases ho
    exact (eq_of_fieldTerm hq).2.1
  | expression _ _ ihf ihm =>
    subst ho
    exact (ihm rfl).trans (ihf rfl)
  | stop =>
    cases ho
    rfl
  | join _ _ _ _ _ ihr ihm =>
    subst ho
    exact (ihm rfl).trans (ihr rfl)
  | enterTooDeep | groupUnclosed | groupFails | negationTooTall | negationFails | conditionFails
  | noTerm | expressionFails | joinTooTall | joinFails => cases ho

/-! ## Tokens stepped over -/

/-- From one place to another these tokens are stepped over, none of them an end of input. What is
left behind them is the same. -/
structure StepsOver (read : List Token) (s next : Cursor) : Prop where
  tokens : s.tokens = read ++ next.tokens
  ne_endOfInput : ∀ t ∈ read, t.kind ≠ .endOfInput
  finish : next.finish = s.finish

namespace StepsOver

variable {read read' : List Token} {s mid next : Cursor}

/-- Nothing is stepped over. -/
theorem nil (s : Cursor) : StepsOver [] s s := ⟨rfl, by simp, rfl⟩

/-- Entering a group or a negation steps over nothing. -/
theorem enter (s : Cursor) : StepsOver [] s s.enter := ⟨rfl, by simp, rfl⟩

/-- Leaving a group or a negation steps over nothing. -/
theorem leave (s : Cursor) : StepsOver [] s s.leave := ⟨rfl, by simp, rfl⟩

/-- The current token is stepped over. -/
theorem one (h : s.current.kind ≠ .endOfInput) : StepsOver [s.current] s s.advance :=
  ⟨Cursor.tokens_eq_cons h, by simpa using h, rfl⟩

/-- One stretch after the other. -/
theorem append (h : StepsOver read s mid) (h' : StepsOver read' mid next) :
    StepsOver (read ++ read') s next where
  tokens := by rw [h.tokens, h'.tokens, List.append_assoc]
  ne_endOfInput := List.forall_mem_append.2 ⟨h.ne_endOfInput, h'.ne_endOfInput⟩
  finish := h'.finish.trans h.finish

end StepsOver

/-- From one place to another at least so many tokens are stepped over. -/
def Consumes (least : Nat) (s next : Cursor) : Prop :=
  ∃ read, StepsOver read s next ∧ least ≤ read.length

namespace Consumes

variable {least least' : Nat} {s mid next : Cursor}

/-- Nothing is stepped over where nothing is done. -/
theorem stay (s : Cursor) : Consumes 0 s s := ⟨[], .nil s, Nat.le_refl 0⟩

/-- Entering steps over nothing. -/
theorem enter (s : Cursor) : Consumes 0 s s.enter := ⟨[], .enter s, Nat.le_refl 0⟩

/-- Leaving steps over nothing. -/
theorem leave (s : Cursor) : Consumes 0 s s.leave := ⟨[], .leave s, Nat.le_refl 0⟩

/-- The current token is stepped over. -/
theorem one (h : s.current.kind ≠ .endOfInput) : Consumes 1 s s.advance :=
  ⟨[s.current], .one h, Nat.le_refl 1⟩

/-- One stretch after the other. -/
theorem trans (h : Consumes least s mid) (h' : Consumes least' mid next) :
    Consumes (least + least') s next := by
  obtain ⟨read, hread, hleast⟩ := h
  obtain ⟨read', hread', hleast'⟩ := h'
  refine ⟨read ++ read', hread.append hread', ?_⟩
  rw [List.length_append]
  exact Nat.add_le_add hleast hleast'

/-- At least so many fewer tokens are left. -/
theorem length_le (h : Consumes least s next) :
    next.tokens.length + least ≤ s.tokens.length := by
  obtain ⟨read, hread, hleast⟩ := h
  rw [hread.tokens, List.length_append, Nat.add_comm]
  exact Nat.add_le_add_right hleast _

/-- At least so many are also at least fewer. -/
theorem weaken (h : Consumes least s next) (hle : least' ≤ least) : Consumes least' s next := by
  obtain ⟨read, hread, hleast⟩ := h
  exact ⟨read, hread, Nat.le_trans hle hleast⟩

end Consumes

/-- The fewest tokens that a call steps over. Joining may find nothing to join. -/
def Call.fewest : Call → Nat
  | climb .. => 0
  | _ => 3

/-- A call that succeeds steps over some tokens and leaves the others. -/
theorem consumes_of_run {limit : Nat} {call : Call} {r : Reading} (h : Run limit call (.ok r)) :
    Consumes call.fewest call.place r.next := by
  generalize ho : Except.ok r = o at h
  induction h generalizing r with
  | @group s inner hs _ _ hr ih =>
    cases ho
    have hopening : Consumes (1 + 0) s s.advance.enter :=
      (Consumes.one (by simp [hs])).trans (.enter _)
    have hinner : Consumes 3 s.advance.enter inner.next := ih rfl
    have hclosing : Consumes (1 + 0) inner.next inner.next.advance.leave :=
      (Consumes.one (by simp [hr])).trans (.leave _)
    exact (hopening.trans (hinner.trans hclosing)).weaken (show 3 ≤ 1 + 0 + (3 + (1 + 0)) by decide)
  | @negation s operand hs _ _ _ ih =>
    cases ho
    have hsign : Consumes (1 + 0) s s.advance.enter :=
      (Consumes.one (by simp [hs])).trans (.enter _)
    have hoperand : Consumes 3 s.advance.enter operand.next := ih rfl
    exact (hsign.trans (hoperand.trans (.leave _))).weaken (show 3 ≤ 1 + 0 + (3 + 0) by decide)
  | condition hs hq =>
    cases ho
    obtain ⟨p, -, htokens⟩ := exists_phrase_of_fieldTerm hs hq
    have hproper : ∀ t ∈ p.tokens, t.kind ≠ .endOfInput := fun t ht =>
      Token.Kind.ne_endOfInput_of_isProper (p.isProper t ht)
    exact ⟨p.tokens, ⟨htokens, hproper, (eq_of_fieldTerm hq).2.2⟩, p.three_le_length_tokens⟩
  | expression _ _ ihf ihm =>
    subst ho
    exact (ihf rfl).trans (ihm rfl)
  | stop =>
    cases ho
    exact .stay _
  | @join min left height s c right o hs _ _ _ _ ihr ihm =>
    subst ho
    have hsign : Consumes 1 s s.advance := .one (by simp [hs])
    exact (hsign.trans ((ihr rfl).trans (ihm rfl))).weaken (Nat.zero_le _)
  | enterTooDeep | groupUnclosed | groupFails | negationTooTall | negationFails | conditionFails
  | noTerm | expressionFails | joinTooTall | joinFails => cases ho

/-! ## The next token -/

/-- What may stand behind a call: no connective that it should have joined. -/
def Call.StopsAt (next : Cursor) : Call → Prop
  | term _ => True
  | expression min _ | climb min _ _ _ =>
    ∀ c, next.current.kind = .connective c → c.precedence < min

/-- A call that succeeds joins everything that binds tightly enough. -/
theorem stopsAt_of_run {limit : Nat} {call : Call} {r : Reading} (h : Run limit call (.ok r)) :
    call.StopsAt r.next := by
  generalize ho : Except.ok r = o at h
  induction h generalizing r with
  | group | negation | condition => trivial
  | expression _ _ _ ihm | join _ _ _ _ _ _ ihm =>
    subst ho
    exact ihm rfl
  | stop hs =>
    cases ho
    exact hs
  | enterTooDeep | groupUnclosed | groupFails | negationTooTall | negationFails | conditionFails
  | noTerm | expressionFails | joinTooTall | joinFails => cases ho

end FieldFilter.Query.Parser
