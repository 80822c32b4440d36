import FieldFilter.Proofs.Query.Acceptance

/-!
# How far the parser looks

The parser reads from left to right and looks one token further than it has read. What it does up
to some place is therefore settled by the tokens up to there and the next one: at any other place
with the same tokens ahead, it takes the same steps. `Takes` says this of a reading that succeeds,
`Sees` of whatever else is found out by looking at the tokens ahead.
-/

namespace FieldFilter

/-- The error that a token is none of the expected kinds. -/
def Token.misfit (expected : List Token.Kind) (t : Token) : SyntaxError :=
  if t.kind = .unknown then .unknownToken t.text t.offset
  else .unexpectedToken expected t.description t.offset

/-- The error that a token spells no value: it is a number that is not exact, or no literal. -/
def Token.valueError (t : Token) : SyntaxError :=
  if t.kind = .number then .invalidNumber t.text t.offset
  else t.misfit Query.Parser.valueStart

end FieldFilter

namespace FieldFilter.Query.Parser

/-! ## Places that look alike -/

namespace Cursor

/-- The tokens from here on, with the end of input that is supplied behind them. -/
def stream (s : Cursor) : List Token := s.tokens ++ [Token.endAt s.finish]

/-- What is unexpected is the current token, which does not fit. -/
theorem unexpected_eq_misfit (s : Cursor) (expected : List Token.Kind) :
    s.unexpected expected = s.current.misfit expected := rfl

/-- There is a current token at every place. -/
theorem exists_stream_eq_cons (s : Cursor) : ∃ rest, s.stream = s.current :: rest := by
  obtain ⟨tokens, finish, depth⟩ := s
  cases tokens with
  | nil => exact ⟨[], rfl⟩
  | cons t ts => exact ⟨ts ++ [Token.endAt finish], rfl⟩

/-- Behind a token that is no end of input the stream goes on. -/
theorem stream_eq_cons {s : Cursor} (h : s.current.kind ≠ .endOfInput) :
    s.stream = s.current :: s.advance.stream := by
  rw [stream, tokens_eq_cons h]
  rfl

/-- Two places at the same depth with the same tokens ahead, as far as these are listed. -/
structure Shares (seen : List Token) (s s' : Cursor) : Prop where
  left : seen <+: s.stream
  right : seen <+: s'.stream
  depth : s'.depth = s.depth

namespace Shares

variable {seen : List Token} {t : Token} {s s' : Cursor}

/-- Places that share some tokens have the first of these for their current token. -/
theorem current_eq_of_cons (h : Shares (t :: seen) s s') : s.current = t ∧ s'.current = t := by
  have hhead {u : Cursor} (hu : t :: seen <+: u.stream) : u.current = t := by
    obtain ⟨rest, hrest⟩ := u.exists_stream_eq_cons
    rw [hrest] at hu
    exact (List.cons_prefix_cons.1 hu).1.symm
  exact ⟨hhead h.left, hhead h.right⟩

/-- Places that share some tokens have the same current token. -/
theorem current_eq (h : Shares seen s s') (hseen : seen ≠ []) : s'.current = s.current := by
  obtain ⟨t, seen, rfl⟩ := List.exists_cons_of_ne_nil hseen
  exact h.current_eq_of_cons.2.trans h.current_eq_of_cons.1.symm

/-- One token further the rest is still shared. -/
theorem advance (h : Shares (t :: seen) s s') (hseen : seen ≠ []) :
    Shares seen s.advance s'.advance := by
  have htail {u : Cursor} (hu : t :: seen <+: u.stream) : seen <+: u.advance.stream := by
    obtain ⟨tokens, finish, depth⟩ := u
    cases tokens with
    | nil =>
      have hnil : seen <+: [] := (List.cons_prefix_cons.1 hu).2
      exact absurd (List.prefix_nil.1 hnil) hseen
    | cons u us => exact (List.cons_prefix_cons.1 hu).2
  exact ⟨htail h.left, htail h.right, h.depth⟩

/-- Groups and negations do not count in what is shared. -/
theorem enter (h : Shares seen s s') : Shares seen s.enter s'.enter :=
  ⟨h.left, h.right, congrArg (· + 1) h.depth⟩

/-- Groups and negations do not count in what is shared. -/
theorem leave (h : Shares seen s s') : Shares seen s.leave s'.leave :=
  ⟨h.left, h.right, congrArg (· - 1) h.depth⟩

end Shares

/-- From one place to another some tokens are read. Any place that shares these, and the next token
behind them, takes the same step to a place that shares what is left. -/
def Takes (read : List Token) (s next : Cursor) (step : Cursor → Cursor → Prop) : Prop :=
  s.stream = read ++ next.stream ∧
  ∀ look ≠ [], ∀ s', Shares (read ++ look) s s' → ∃ next', Shares look next next' ∧ step s' next'

/-- Some tokens are looked at, and whatever shares these has the property. -/
def Sees (seen : List Token) (s : Cursor) (holds : Cursor → Prop) : Prop :=
  seen <+: s.stream ∧ ∀ s', Shares seen s s' → holds s'

namespace Takes

variable {read read' : List Token} {s mid next : Cursor} {step step' whole : Cursor → Cursor → Prop}

/-- Looking at the current token. -/
theorem stay (s : Cursor) :
    Takes [] s s fun a b => b = a ∧ a.current = s.current ∧ a.depth = s.depth :=
  ⟨rfl, fun _ hlook s' h => ⟨s', h, rfl, h.current_eq hlook, h.depth⟩⟩

/-- Stepping over the current token. -/
theorem one {s : Cursor} (hs : s.current.kind ≠ .endOfInput) :
    Takes [s.current] s s.advance fun a b =>
      b = a.advance ∧ a.current = s.current ∧ a.depth = s.depth :=
  ⟨stream_eq_cons hs, fun _ hlook s' h =>
    ⟨s'.advance, h.advance hlook, rfl, h.current_eq_of_cons.2, h.depth⟩⟩

/-- One step after the other. -/
theorem append (h : Takes read s mid step) (h' : Takes read' mid next step')
    (hwhole : ∀ a b c, step a b → step' b c → whole a c) :
    Takes (read ++ read') s next whole := by
  refine ⟨by rw [h.1, h'.1, List.append_assoc], fun look hlook s' hshares => ?_⟩
  rw [List.append_assoc] at hshares
  obtain ⟨mid', hmid, hstep⟩ := h.2 _ (List.append_ne_nil_of_right_ne_nil read' hlook) s' hshares
  obtain ⟨next', hnext, hstep'⟩ := h'.2 look hlook mid' hmid
  exact ⟨next', hnext, hwhole s' mid' next' hstep hstep'⟩

/-- A step of other words. -/
theorem imp (h : Takes read s next step) (hstep : ∀ a b, step a b → step' a b) :
    Takes read s next step' := by
  refine ⟨h.1, fun look hlook s' hshares => ?_⟩
  obtain ⟨next', hnext, hs⟩ := h.2 look hlook s' hshares
  exact ⟨next', hnext, hstep s' next' hs⟩

/-- A group or a negation is entered behind the tokens taken. -/
theorem enter (h : Takes read s next step) (hstep : ∀ a b, step a b → step' a b.enter) :
    Takes read s next.enter step' := by
  refine ⟨h.1, fun look hlook s' hshares => ?_⟩
  obtain ⟨next', hnext, hs⟩ := h.2 look hlook s' hshares
  exact ⟨next'.enter, hnext.enter, hstep s' next' hs⟩

/-- A group or a negation is left behind the tokens taken. -/
theorem leave (h : Takes read s next step) (hstep : ∀ a b, step a b → step' a b.leave) :
    Takes read s next.leave step' := by
  refine ⟨h.1, fun look hlook s' hshares => ?_⟩
  obtain ⟨next', hnext, hs⟩ := h.2 look hlook s' hshares
  exact ⟨next'.leave, hnext.leave, hstep s' next' hs⟩

/-- What is seen behind a step is seen in front of it. -/
theorem sees {seen : List Token} {holds holds' : Cursor → Prop} (h : Takes read s next step)
    (h' : Sees seen next holds) (hseen : seen ≠ [])
    (hholds : ∀ a b, step a b → holds b → holds' a) : Sees (read ++ seen) s holds' := by
  refine ⟨h.1 ▸ (List.prefix_append_right_inj read).2 h'.1, fun s' hshares => ?_⟩
  obtain ⟨next', hnext, hstep⟩ := h.2 seen hseen s' hshares
  exact hholds s' next' hstep (h'.2 next' hnext)

end Takes

/-- Looking at the current token and no further. -/
theorem sees_current (s : Cursor) :
    Sees [s.current] s fun a => a.current = s.current ∧ a.depth = s.depth := by
  obtain ⟨rest, hrest⟩ := s.exists_stream_eq_cons
  refine ⟨⟨rest, hrest.symm⟩, fun s' h => ⟨h.current_eq (by simp), h.depth⟩⟩

end Cursor

open Cursor

/-- What is made of a result does not make an error. -/
theorem eq_error_of_map {α β : Type} {x : Except SyntaxError α} {f : α → β} {e : SyntaxError}
    (h : x.map f = .error e) : x = .error e := by
  cases x with
  | error e' => exact congrArg Except.error (Except.error.inj h)
  | ok a => cases h

/-! ## Conditions look no further than they must -/

/-- Whether a value is read, and which, is up to the current token alone. -/
theorem value_eq (s : Cursor) :
    value s =
      match s.current.value? with
      | some v => .ok (v, s.advance)
      | none => .error s.current.valueError := by
  unfold value
  simp only [unexpected_eq_misfit]
  generalize s.current = t
  obtain ⟨kind, text, offset⟩ := t
  cases kind with
  | number =>
    simp only [Token.value?]
    cases Decimal.readExact? text <;> rfl
  | _ => rfl

/-- A token that spells a value is read as this value. -/
theorem value_eq_ok {s : Cursor} {v : Value} (h : s.current.value? = some v) :
    value s = .ok (v, s.advance) := by
  rw [value_eq, h]

/-- A token that spells no value is an error. -/
theorem value_eq_error {s : Cursor} (h : s.current.value? = none) :
    value s = .error s.current.valueError := by
  rw [value_eq, h]

/-- Quoted text is a condition. -/
theorem condition_of_quoted {s : Cursor} (h : s.current.kind = .quoted) :
    condition s = .ok (.quoted s.current.text, s.advance) := by
  unfold condition
  simp only [h]

/-- A comparison needs a value behind its sign. -/
theorem condition_of_comparison {s : Cursor} {op : Comparison}
    (h : s.current.kind = .comparison op) :
    condition s = (value s.advance).map fun (v, next) => (.compares op v, next) := by
  unfold condition
  simp only [h]
  cases value s.advance <;> rfl

/-- A number that is not exact is no condition. -/
theorem condition_of_value?_eq_none {s : Cursor} (hk : s.current.kind.isValue = true)
    (h : s.current.value? = none) : condition s = .error s.current.valueError := by
  unfold condition
  split
  · simp_all [Token.Kind.isValue]
  · simp_all [Token.Kind.isValue]
  · rw [if_pos hk, value_eq_error h]
    rfl

/-- Nothing else is a condition. -/
theorem condition_of_not_start {s : Cursor} (hquoted : s.current.kind ≠ .quoted)
    (hcomparison : ∀ op, s.current.kind ≠ .comparison op)
    (hvalue : s.current.kind.isValue = false) :
    condition s = .error (s.current.misfit conditionStart) := by
  unfold condition
  split
  · exact absurd ‹_› hquoted
  · exact absurd ‹_› (hcomparison _)
  · rw [if_neg (by simp [hvalue]), unexpected_eq_misfit]

/-- The four ways in which what follows the colon can go on. -/
theorem condition_cases (s : Cursor) :
    s.current.kind = .quoted ∨ (∃ op, s.current.kind = .comparison op) ∨
      s.current.kind.isValue = true ∨
      (s.current.kind ≠ .quoted ∧ (∀ op, s.current.kind ≠ .comparison op) ∧
        s.current.kind.isValue = false) := by
  cases s.current.kind <;> simp [Token.Kind.isValue]

theorem ne_endOfInput_of_isValue {k : Token.Kind} (h : k.isValue = true) : k ≠ .endOfInput := by
  rintro rfl
  cases h

/-- An end of input spells no value. -/
theorem ne_endOfInput_of_value? {s : Cursor} {v : Value} (h : s.current.value? = some v) :
    s.current.kind ≠ .endOfInput :=
  Token.Kind.ne_endOfInput_of_isProper (Token.isProper_of_value? h)

/-- Reading a condition looks at the condition and the next token. -/
theorem takes_of_condition {s next : Cursor} {c : Condition} (h : condition s = .ok (c, next)) :
    ∃ read, Takes read s next fun a b => condition a = .ok (c, b) := by
  rcases condition_cases s with hk | ⟨op, hk⟩ | hk | ⟨hquoted, hcomparison, hvalue⟩
  · rw [condition_of_quoted hk] at h
    cases h
    refine ⟨_, (Takes.one (by simp [hk])).imp fun a b ⟨hb, ha, _⟩ => ?_⟩
    rw [condition_of_quoted (by rw [ha, hk]), ha, hb]
  · rw [condition_of_comparison hk] at h
    cases hv : s.advance.current.value? with
    | none =>
      rw [value_eq_error hv] at h
      cases h
    | some v =>
      rw [value_eq_ok hv] at h
      cases h
      have hsign := Takes.one (s := s) (by simp [hk])
      refine ⟨_, hsign.append (Takes.one (ne_endOfInput_of_value? hv)) ?_⟩
      rintro a _ _ ⟨rfl, ha, _⟩ ⟨rfl, hb, _⟩
      rw [condition_of_comparison (by rw [ha, hk]), value_eq_ok (by rw [hb, hv])]
      rfl
  · cases hv : s.current.value? with
    | none =>
      rw [condition_of_value?_eq_none hk hv] at h
      cases h
    | some v =>
      have hone := Takes.one (s := s) (ne_endOfInput_of_isValue hk)
      rw [condition_of_value (value_eq_ok hv)] at h
      split at h
      · rename_i hdots
        cases hu : s.advance.advance.current.value? with
        | none =>
          rw [value_eq_error hu] at h
          cases h
        | some u =>
          rw [value_eq_ok hu] at h
          cases h
          have hrange : Takes [s.advance.current, s.advance.advance.current] s.advance
              s.advance.advance.advance fun b d => b.current.kind = .dots ∧
                b.advance.current.value? = some u ∧ d = b.advance.advance := by
            refine (Takes.one (by simp [hdots])).append (Takes.one (ne_endOfInput_of_value? hu)) ?_
            rintro b _ _ ⟨rfl, hb, _⟩ ⟨rfl, hc, _⟩
            exact ⟨by rw [hb, hdots], by rw [hc, hu], rfl⟩
          refine ⟨_, hone.append hrange ?_⟩
          rintro a _ _ ⟨rfl, ha, _⟩ ⟨hb, hc, rfl⟩
          rw [condition_of_value (value_eq_ok (by rw [ha, hv])), if_pos hb, value_eq_ok hc]
          rfl
      · rename_i hdots
        cases h
        refine ⟨_, hone.append (Takes.stay s.advance) ?_⟩
        rintro a _ _ ⟨rfl, ha, _⟩ ⟨rfl, hb, _⟩
        rw [condition_of_value (value_eq_ok (by rw [ha, hv])), if_neg (by rw [hb]; exact hdots)]
  · rw [condition_of_not_start hquoted hcomparison hvalue] at h
    cases h

/-- Behind a name and a colon there is a condition. -/
theorem fieldTerm_of_colon {s : Cursor} (h : s.advance.current.kind = .colon) :
    fieldTerm s =
      (condition s.advance.advance).map fun (c, next) => (.leaf s.current.text c, next) := by
  unfold fieldTerm
  rw [if_pos h]
  cases condition s.advance.advance <;> rfl

/-- Behind a name there has to be a colon. -/
theorem fieldTerm_of_not_colon {s : Cursor} (h : s.advance.current.kind ≠ .colon) :
    fieldTerm s = .error (s.advance.current.misfit [.colon]) := by
  unfold fieldTerm
  rw [if_neg h, unexpected_eq_misfit]

/-- Stepping over the name of a field and the colon behind it. -/
theorem takes_name_colon {s : Cursor} (hs : s.current.kind = .identifier)
    (hcolon : s.advance.current.kind = .colon) :
    Takes [s.current, s.advance.current] s s.advance.advance fun a b =>
      a.current = s.current ∧ a.advance.current.kind = .colon ∧ b = a.advance.advance := by
  refine (Takes.one (by simp [hs])).append (Takes.one (by simp [hcolon])) ?_
  rintro a _ _ ⟨rfl, ha, _⟩ ⟨rfl, hb, _⟩
  exact ⟨ha, by rw [hb, hcolon], rfl⟩

/-- Reading a condition on a field takes some tokens, and the next one is looked at. -/
theorem takes_of_fieldTerm {s next : Cursor} {q : Query} (hs : s.current.kind = .identifier)
    (h : fieldTerm s = .ok (q, next)) :
    ∃ read, Takes read s next fun a b => a.current.kind = .identifier ∧
      fieldTerm a = .ok (q, b) := by
  by_cases hcolon : s.advance.current.kind = .colon
  · rw [fieldTerm_of_colon hcolon] at h
    cases hc : condition s.advance.advance with
    | error e =>
      rw [hc] at h
      cases h
    | ok r =>
      rw [hc] at h
      cases h
      obtain ⟨read, hread⟩ := takes_of_condition hc
      refine ⟨_, (takes_name_colon hs hcolon).append hread ?_⟩
      rintro a _ b ⟨ha, hacolon, rfl⟩ hb
      refine ⟨by rw [ha, hs], ?_⟩
      rw [fieldTerm_of_colon hacolon, hb, ha]
      rfl
  · rw [fieldTerm_of_not_colon hcolon] at h
    cases h

/-! ## Runs look no further than they must -/

/-- The place where a call starts. -/
def Call.place : Call → Cursor
  | term s | expression _ s | climb _ _ _ s => s

/-- The same call at another place. -/
def Call.at : Call → Cursor → Call
  | term _, s => term s
  | expression min _, s => expression min s
  | climb min left height _, s => climb min left height s

/-- Stepping over the token that opens a group or a negation. -/
theorem takes_enter {s : Cursor} (hs : s.current.kind ≠ .endOfInput) :
    Takes [s.current] s s.advance.enter fun a b =>
      a.current = s.current ∧ a.depth = s.depth ∧ b = a.advance.enter :=
  (Takes.one hs).enter fun _ _ ⟨hb, ha, hdepth⟩ => ⟨ha, hdepth, by rw [hb]⟩

/-- A call that succeeds looks at what it reads and the next token. -/
theorem takes_of_run {limit : Nat} {call : Call} {r : Reading} (h : Run limit call (.ok r)) :
    ∃ read, Takes read call.place r.next fun a b =>
      Run limit (call.at a) (.ok ⟨r.query, r.height, b⟩) := by
  generalize ho : Except.ok r = o at h
  induction h generalizing r with
  | @group s inner hs hd _ hr ih =>
    cases ho
    obtain ⟨read, hread⟩ := ih rfl
    have hclosed : Takes (read ++ [inner.next.current]) s.advance.enter inner.next.advance.leave
        fun b d => ∃ c, Run limit (.expression 0 b) (.ok ⟨inner.query, inner.height, c⟩) ∧
          c.current.kind = .rightParen ∧ d = c.advance.leave := by
      refine (hread.append (Takes.one (by simp [hr])) ?_).leave fun _ _ h => h
      rintro b c _ hrun ⟨rfl, hc, _⟩
      exact ⟨c, hrun, by rw [hc, hr], rfl⟩
    have hopening := takes_enter (s := s) (by simp [hs])
    refine ⟨_, hopening.append hclosed ?_⟩
    rintro a _ _ ⟨ha, hdepth, rfl⟩ ⟨c, hrun, hc, rfl⟩
    exact Run.group (by rw [ha, hs]) (by rw [hdepth]; exact hd) hrun hc
  | @negation s operand hs hd _ hh ih =>
    cases ho
    obtain ⟨read, hread⟩ := ih rfl
    have hleft : Takes read s.advance.enter operand.next.leave fun b d =>
        ∃ c, Run limit (.term b) (.ok ⟨operand.query, operand.height, c⟩) ∧ d = c.leave :=
      hread.leave fun b c hrun => ⟨c, hrun, rfl⟩
    have hopening := takes_enter (s := s) (by simp [hs])
    refine ⟨_, hopening.append hleft ?_⟩
    rintro a _ _ ⟨ha, hdepth, rfl⟩ ⟨c, hrun, rfl⟩
    exact Run.negation (by rw [ha, hs]) (by rw [hdepth]; exact hd) hrun hh
  | condition hs hq =>
    cases ho
    obtain ⟨read, hread⟩ := takes_of_fieldTerm hs hq
    exact ⟨read, hread.imp fun a b ⟨ha, hb⟩ => .condition ha hb⟩
  | @expression min s first o _ _ ihf ihm =>
    subst ho
    obtain ⟨read, hread⟩ := ihf rfl
    obtain ⟨read', hread'⟩ := ihm rfl
    exact ⟨read ++ read', hread.append hread' fun a b c hfirst hmore => .expression hfirst hmore⟩
  | @stop min left height s hs =>
    cases ho
    refine ⟨[], (Takes.stay s).imp ?_⟩
    rintro a _ ⟨rfl, ha, _⟩
    exact .stop fun c hc => hs c (by rw [← ha, hc])
  | @join min left height s c right o hs hc _ hh _ ihr ihm =>
    subst ho
    obtain ⟨read, hread⟩ := ihr rfl
    obtain ⟨read', hread'⟩ := ihm rfl
    have hsign := Takes.one (s := s) (by simp [hs])
    have hboth : Takes (read ++ read') s.advance r.next fun b d =>
        ∃ c', Run limit (.expression (c.precedence + 1) b) (.ok ⟨right.query, right.height, c'⟩) ∧
          Run limit (.climb min (.join c left right.query) (max height right.height + 1) c')
            (.ok ⟨r.query, r.height, d⟩) :=
      hread.append hread' fun b c' d hright hmore => ⟨c', hright, hmore⟩
    refine ⟨_, hsign.append hboth ?_⟩
    rintro a _ d ⟨rfl, ha, _⟩ ⟨c', hright, hmore⟩
    exact Run.join (by rw [ha, hs]) hc hright hh hmore
  | enterTooDeep | groupUnclosed | groupFails | negationTooTall | negationFails | conditionFails
  | noTerm | expressionFails | joinTooTall | joinFails => cases ho

end FieldFilter.Query.Parser
