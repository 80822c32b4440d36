import FieldFilter.Proofs.Query.Lookahead

/-!
# Where a query stops being one

A token that cannot stand where it stands is reported together with the kinds that could. Two facts
about failing runs make the report exact. What has been read in front of the token can be completed
to a query, beginning with a token of each expected kind; and the run has looked at nothing behind
the token, so that it fails alike whatever follows there.
-/

namespace FieldFilter

/-- A token of a given kind; where the kind is that of a value, it spells one. -/
def Token.sample (kind : Token.Kind) : Token := ⟨kind, "0", 0⟩

/-! ## What can be begun -/

/-- Tokens with which a phrase of a level can begin. -/
def Level.Begins (l : Level) (tokens : List Token) : Prop := ∃ p : Phrase l, tokens <+: p.tokens

/-- What begins a phrase of some level begins a whole query. -/
theorem Level.Begins.whole {l : Level} {tokens : List Token}
    (h : l.Begins tokens) : Level.whole.Begins tokens := by
  obtain ⟨p, hp⟩ := h
  exact ⟨p.loosen .whole l.whole_le, by rwa [Phrase.tokens_loosen]⟩

/-- Tokens with which a condition can begin behind its colon. -/
def Condition.Begins (tokens : List Token) : Prop :=
  ∃ (c : Condition) (body : List Token), c.SpelledBy body ∧ tokens <+: body

namespace Phrase

/-- A condition on a field. -/
def sample : Phrase .term :=
  .condition (Token.sample .identifier) (Token.sample .colon) [Token.sample .identifier]
    (.equals (.identifier "0")) rfl rfl (.equals rfl)

/-- A whole query goes on with either connective, whichever of the two it ends in. -/
theorem begins_connective (p : Phrase .whole) (c : Connective) :
    Level.whole.Begins (p.tokens ++ [Token.sample (.connective c)]) := by
  have hsign (c : Connective) : (Token.sample (.connective c)).kind = .connective c := rfl
  suffices ∃ p' : Phrase .whole,
      p'.tokens = p.tokens ++ Token.sample (.connective c) :: sample.tokens by
    obtain ⟨p', hp'⟩ := this
    refine ⟨p', sample.tokens, ?_⟩
    rw [hp', List.append_assoc]
    rfl
  -- an `AND` behind an `OR` chain only goes on with the last operand of the chain
  cases c with
  | or => exact ⟨p.join .or _ sample (hsign .or) (Nat.le_refl _) (by decide), tokens_join ..⟩
  | and =>
    cases p with
    | single _ operand =>
      let whole : Phrase (.chain .and) :=
        operand.join .and _ sample (hsign .and) (Nat.le_refl _) (by decide)
      have hwhole : whole.tokens = operand.tokens ++ _ :: sample.tokens := tokens_join ..
      exact ⟨.single .or whole, hwhole⟩
    | joined _ left sign right hleft =>
      let last : Phrase (.chain .and) :=
        right.join .and _ sample (hsign .and) (Nat.le_refl _) (by decide)
      have hlast : last.tokens = right.tokens ++ Token.sample _ :: sample.tokens := tokens_join ..
      refine ⟨.joined .or left sign last hleft, ?_⟩
      change left.tokens ++ sign :: last.tokens = left.tokens ++ sign :: right.tokens ++ _
      rw [hlast, List.append_assoc]
      rfl

end Phrase

namespace Query.Parser

open Cursor

/-- Tokens with which a call can go on where it starts. A climb goes on behind any phrase that is
loose enough for the connective behind it. -/
def Call.Begins : Call → List Token → Prop
  | .term _, tokens => Level.term.Begins tokens
  | .expression min _, tokens => min ≤ Level.term.precedence →
    ∃ l : Level, min ≤ l.precedence ∧ l.Begins tokens
  | .climb min _ _ s, tokens => ∀ (l : Level) (p : Phrase l), min ≤ l.precedence →
    (∀ c, s.current.kind = .connective c → c.precedence ≤ l.precedence) →
      ∃ l' : Level, min ≤ l'.precedence ∧ l'.Begins (p.tokens ++ tokens)

/-! ## How a reading fails -/

/-- A reading fails at a token that is none of the expected kinds: it looks at nothing behind the
token, and with a token of each expected kind in its place there would be a way to go on. -/
structure Misfit (s : Cursor) (fails : Cursor → Prop) (begins : List Token → Prop)
    (read : List Token) (t : Token) (expected : List Token.Kind) : Prop where
  ne_nil : expected ≠ []
  notExpected : t.kind ∉ expected
  sees : Sees (read ++ [t]) s fails
  begins : ∀ kind ∈ expected, begins (read ++ [Token.sample kind])

/-- The ways in which a reading fails. -/
inductive Failure (s : Cursor) (fails : Cursor → Prop) (begins : List Token → Prop) :
    SyntaxError → Prop
  | invalidNumber (lexeme : String) (offset : Nat) :
      Failure s fails begins (.invalidNumber lexeme offset)
  | nestingTooDeep (limit offset : Nat) : Failure s fails begins (.nestingTooDeep limit offset)
  | misfit (read : List Token) (t : Token) (expected : List Token.Kind)
      (h : Misfit s fails begins read t expected) : Failure s fails begins (t.misfit expected)

namespace Failure

variable {s mid : Cursor} {fails fails' : Cursor → Prop} {begins begins' : List Token → Prop}
  {read : List Token} {step : Cursor → Cursor → Prop} {e : SyntaxError}

/-- A failure at the current token. -/
theorem here {expected : List Token.Kind} (hne : expected ≠ []) (h : s.current.kind ∉ expected)
    (hfails : ∀ a, a.current = s.current → fails a)
    (hbegins : ∀ kind ∈ expected, begins [Token.sample kind]) :
    Failure s fails begins (s.current.misfit expected) := by
  refine .misfit [] _ _ ⟨hne, h, ?_, hbegins⟩
  obtain ⟨hseen, hsame⟩ := sees_current s
  exact ⟨hseen, fun a ha => hfails a (hsame a ha).1⟩

/-- A failure behind something that has been read. -/
theorem behind (f : Failure mid fails begins e) (h : Takes read s mid step)
    (hfails : ∀ a b, step a b → fails b → fails' a)
    (hbegins : ∀ tokens, begins tokens → begins' (read ++ tokens)) :
    Failure s fails' begins' e := by
  cases f with
  | invalidNumber lexeme offset => exact .invalidNumber lexeme offset
  | nestingTooDeep limit offset => exact .nestingTooDeep limit offset
  | misfit read' t expected m =>
    refine .misfit (read ++ read') t expected ⟨m.ne_nil, m.notExpected, ?_, fun kind hkind => ?_⟩
    · rw [List.append_assoc]
      exact h.sees m.sees (by simp) hfails
    · rw [List.append_assoc]
      exact hbegins _ (m.begins kind hkind)

/-- A failure in other words. -/
theorem imp (f : Failure s fails begins e) (hfails : ∀ a, fails a → fails' a)
    (hbegins : ∀ tokens, begins tokens → begins' tokens) : Failure s fails' begins' e := by
  refine f.behind (Takes.stay s) ?_ hbegins
  rintro a _ ⟨rfl, _⟩
  exact hfails _

end Failure

/-! ### Conditions -/

/-- A token that is neither a value nor a number is not expected where a value is. -/
theorem not_mem_valueStart {t : Token} (h : t.value? = none) (hnumber : t.kind ≠ .number) :
    t.kind ∉ valueStart := by
  obtain ⟨kind, text, offset⟩ := t
  cases kind <;> simp_all [Token.value?, valueStart]

/-- Only a number can be of a kind for values and spell none. -/
theorem kind_eq_number_of_value? {t : Token} (hk : t.kind.isValue = true)
    (h : t.value? = none) : t.kind = .number := by
  obtain ⟨kind, text, offset⟩ := t
  cases kind <;> simp_all [Token.value?, Token.Kind.isValue]

/-- There is a value of every kind that is expected where a value is. -/
theorem exists_value?_sample {kind : Token.Kind} (h : kind ∈ valueStart) :
    ∃ v, (Token.sample kind).value? = some v := by
  simp only [valueStart, List.mem_cons, List.not_mem_nil, or_false] at h
  rcases h with rfl | rfl | rfl
  · exact ⟨.identifier "0", rfl⟩
  · exact ⟨.number ⟨false, 0, 0, by decide, by decide⟩, rfl⟩
  · exact ⟨.boolean false, rfl⟩

/-- A value fails at a number that is not exact, or at a token that is no literal. -/
theorem failure_of_value {s : Cursor} {e : SyntaxError} (h : value s = .error e) :
    Failure s (fun a => value a = .error e)
      (fun tokens => ∃ (t : Token) (v : Value), t.value? = some v ∧ tokens = [t]) e := by
  cases hv : s.current.value? with
  | some v =>
    rw [value_eq_ok hv] at h
    cases h
  | none =>
    rw [value_eq_error hv] at h
    obtain rfl := Except.error.inj h
    by_cases hnumber : s.current.kind = .number
    · rw [Token.valueError, if_pos hnumber]
      exact .invalidNumber _ _
    · have herror : s.current.valueError = s.current.misfit valueStart := if_neg hnumber
      rw [herror]
      refine Failure.here (List.cons_ne_nil _ _) (not_mem_valueStart hv hnumber) (fun a ha => ?_)
        fun kind hkind => ?_
      · rw [value_eq_error (by rw [ha, hv]), ha, herror]
      · obtain ⟨v, hsample⟩ := exists_value?_sample hkind
        exact ⟨_, v, hsample, rfl⟩

/-- What starts no condition is not expected behind a colon. -/
theorem not_mem_conditionStart {k : Token.Kind} (hquoted : k ≠ .quoted)
    (hcomparison : ∀ op, k ≠ .comparison op) (hvalue : k.isValue = false) :
    k ∉ conditionStart := by
  intro h
  simp only [conditionStart, List.mem_cons, List.not_mem_nil, or_false] at h
  rcases h with rfl | rfl | rfl | rfl | rfl | rfl | rfl | rfl
  · cases hvalue
  · cases hvalue
  · cases hvalue
  · exact hquoted rfl
  all_goals exact hcomparison _ rfl

/-- A token of each kind that may follow the colon begins a condition. -/
theorem begins_sample_of_mem_conditionStart {kind : Token.Kind} (h : kind ∈ conditionStart) :
    Condition.Begins [Token.sample kind] := by
  have hvalue {k : Token.Kind} (hk : k ∈ valueStart) : Condition.Begins [Token.sample k] := by
    obtain ⟨v, hv⟩ := exists_value?_sample hk
    exact ⟨_, _, .equals hv, List.prefix_refl _⟩
  have hcomparison (op : Comparison) : Condition.Begins [Token.sample (.comparison op)] :=
    ⟨.compares op (.identifier "0"), [_, Token.sample .identifier], .compares rfl rfl, _, rfl⟩
  simp only [conditionStart, List.mem_cons, List.not_mem_nil, or_false] at h
  rcases h with rfl | rfl | rfl | rfl | rfl | rfl | rfl | rfl
  · exact hvalue (by simp [valueStart])
  · exact hvalue (by simp [valueStart])
  · exact hvalue (by simp [valueStart])
  · exact ⟨_, _, .quoted rfl, List.prefix_refl _⟩
  all_goals exact hcomparison _

/-- A condition fails at its first token, at the value of a comparison, or at the upper bound of a
range. -/
theorem failure_of_condition {s : Cursor} {e : SyntaxError} (h : condition s = .error e) :
    Failure s (fun a => condition a = .error e) Condition.Begins e := by
  rcases condition_cases s with hk | ⟨op, hk⟩ | hk | ⟨hquoted, hcomparison, hvalue⟩
  · rw [condition_of_quoted hk] at h
    cases h
  · have hv : value s.advance = .error e := by
      rw [condition_of_comparison hk] at h
      exact eq_error_of_map h
    have hsign := Takes.one (s := s) (by simp [hk])
    refine (failure_of_value hv).behind hsign ?_ ?_
    · rintro a _ ⟨rfl, ha, _⟩ hfails
      rw [condition_of_comparison (by rw [ha, hk]), hfails]
      rfl
    · rintro _ ⟨t, v, ht, rfl⟩
      exact ⟨.compares op v, [s.current, t], .compares hk ht, List.prefix_refl _⟩
  · cases hv : s.current.value? with
    | none =>
      rw [condition_of_value?_eq_none hk hv] at h
      obtain rfl := Except.error.inj h
      rw [Token.valueError, if_pos (kind_eq_number_of_value? hk hv)]
      exact .invalidNumber _ _
    | some v =>
      have hone := Takes.one (s := s) (ne_endOfInput_of_isValue hk)
      rw [condition_of_value (value_eq_ok hv)] at h
      split at h
      · rename_i hdots
        have hupper : value s.advance.advance = .error e := eq_error_of_map h
        have hlower : Takes [s.current, s.advance.current] s s.advance.advance fun a b =>
            a.current.value? = some v ∧ a.advance.current.kind = .dots ∧
              b = a.advance.advance := by
          refine hone.append (Takes.one (by simp [hdots])) ?_
          rintro a _ _ ⟨rfl, ha, _⟩ ⟨rfl, hb, _⟩
          exact ⟨by rw [ha, hv], by rw [hb, hdots], rfl⟩
        refine (failure_of_value hupper).behind hlower ?_ ?_
        · rintro a _ ⟨ha, hb, rfl⟩ hfails
          rw [condition_of_value (value_eq_ok ha), if_pos hb, hfails]
          rfl
        · rintro _ ⟨t, u, ht, rfl⟩
          exact ⟨_, [s.current, s.advance.current, t], .within hv hdots ht, List.prefix_refl _⟩
      · cases h
  · rw [condition_of_not_start hquoted hcomparison hvalue] at h
    obtain rfl := Except.error.inj h
    refine Failure.here (List.cons_ne_nil _ _)
      (not_mem_conditionStart hquoted hcomparison hvalue) (fun a ha => ?_)
      fun kind => begins_sample_of_mem_conditionStart
    rw [← ha] at hquoted hcomparison hvalue ⊢
    exact condition_of_not_start hquoted hcomparison hvalue

/-- A condition on a field fails at a missing colon or in the condition itself. -/
theorem failure_of_fieldTerm {s : Cursor} {e : SyntaxError} (hs : s.current.kind = .identifier)
    (h : fieldTerm s = .error e) :
    Failure s (fun a => a.current.kind = .identifier ∧ fieldTerm a = .error e)
      Level.term.Begins e := by
  by_cases hcolon : s.advance.current.kind = .colon
  · rw [fieldTerm_of_colon hcolon] at h
    refine (failure_of_condition (eq_error_of_map h)).behind (takes_name_colon hs hcolon) ?_ ?_
    · rintro a _ ⟨ha, hacolon, rfl⟩ hfails
      refine ⟨by rw [ha, hs], ?_⟩
      rw [fieldTerm_of_colon hacolon, hfails]
      rfl
    · rintro tokens ⟨c, body, hbody, hprefix⟩
      refine ⟨.condition s.current s.advance.current body c hs hcolon hbody, ?_⟩
      exact (List.prefix_append_right_inj [s.current, s.advance.current]).2 hprefix
  · rw [fieldTerm_of_not_colon hcolon] at h
    obtain rfl := Except.error.inj h
    have hcolon' : s.advance.current.kind ∉ [Token.Kind.colon] := by simpa using hcolon
    have hfirst : Failure s.advance (fun b => b.current = s.advance.current)
        (fun tokens => tokens = [Token.sample .colon]) (s.advance.current.misfit [.colon]) :=
      Failure.here (List.cons_ne_nil _ _) hcolon' (fun _ hb => hb) (by simp)
    have hname := Takes.one (s := s) (by simp [hs])
    refine hfirst.behind hname ?_ ?_
    · rintro a _ ⟨rfl, ha, _⟩ hb
      refine ⟨by rw [ha, hs], ?_⟩
      rw [fieldTerm_of_not_colon (by rw [hb]; exact hcolon), hb]
    · rintro _ rfl
      refine ⟨.condition s.current (Token.sample .colon) [Token.sample .identifier]
        (.equals (.identifier "0")) hs rfl (.equals rfl), [Token.sample .identifier], rfl⟩

/-! ### Terms and expressions -/

/-- What a reading takes is told by its tokens alone. -/
theorem read_eq_of_tokens_eq {read tokens : List Token} {s next : Cursor}
    (h : s.stream = read ++ next.stream) (ht : s.tokens = tokens ++ next.tokens) :
    read = tokens := by
  have heq : read ++ next.stream = tokens ++ (next.tokens ++ [Token.endAt s.finish]) := by
    rw [← h, stream, ht, List.append_assoc]
  exact List.append_inj_left' heq (by simp [stream])

/-- An expression that succeeds reads the tokens of a phrase. -/
theorem exists_phrase_takes {limit min : Nat} {s : Cursor} {r : Reading}
    (run : Run limit (.expression min s) (.ok r)) (hmin : min ≤ Level.term.precedence) :
    ∃ (l : Level) (p : Phrase l), Closes min p r ∧ Takes p.tokens s r.next fun a b =>
      Run limit (.expression min a) (.ok ⟨r.query, r.height, b⟩) := by
  obtain ⟨read, hread⟩ := takes_of_run run
  obtain ⟨l, p, hp, htokens⟩ := derived_of_run run hmin
  obtain rfl := read_eq_of_tokens_eq hread.1 htokens
  exact ⟨l, p, hp, hread⟩

/-- A token of each kind that starts a term begins one. -/
theorem begins_sample_of_mem_termStart {kind : Token.Kind} (h : kind ∈ termStart) :
    Level.term.Begins [Token.sample kind] := by
  simp only [termStart, List.mem_cons, List.not_mem_nil, or_false] at h
  rcases h with rfl | rfl | rfl
  · exact ⟨Phrase.sample, _, rfl⟩
  · exact ⟨.group (Token.sample .leftParen) (Phrase.sample.loosen .whole (Level.whole_le _))
      (Token.sample .rightParen) rfl rfl, _, rfl⟩
  · exact ⟨.negation (Token.sample .not) Phrase.sample rfl, _, rfl⟩

/-- Behind a whole expression no connective is left over. -/
theorem Closes.current_ne_connective {l : Level} {p : Phrase l} {r : Reading}
    (h : Closes 0 p r) (c : Connective) : r.next.current.kind ≠ .connective c :=
  fun hc => Nat.not_lt_zero _ (h.stops c hc)

/-- Inside a group, what begins a whole query begins the group. -/
theorem begins_group {opening : Token} (hopening : opening.kind = .leftParen)
    {tokens : List Token} (h : Level.whole.Begins tokens) :
    Level.term.Begins (opening :: tokens) := by
  obtain ⟨p, more, hmore⟩ := h
  refine ⟨.group opening p (Token.sample .rightParen) hopening rfl,
    more ++ [Token.sample .rightParen], ?_⟩
  simp [Phrase.tokens, ← hmore]

/-- Behind a phrase in a group, a connective goes on and a parenthesis closes. -/
theorem begins_of_mem_afterGroup {opening : Token} (hopening : opening.kind = .leftParen)
    {l : Level} (p : Phrase l) :
    ∀ kind ∈ afterGroup, Level.term.Begins (opening :: (p.tokens ++ [Token.sample kind])) := by
  let whole : Phrase .whole := p.loosen .whole l.whole_le
  have hwhole : whole.tokens = p.tokens := Phrase.tokens_loosen ..
  rw [← hwhole]
  intro kind hkind
  simp only [afterGroup, List.mem_cons, List.not_mem_nil, or_false] at hkind
  rcases hkind with rfl | rfl | rfl
  · exact begins_group hopening (whole.begins_connective .and)
  · exact begins_group hopening (whole.begins_connective .or)
  · exact ⟨.group opening whole (Token.sample .rightParen) hopening rfl, [], List.append_nil _⟩

/-- A call fails because of the depth limit, at a number that is not exact, or at a token that does
not go on with what has been read. -/
theorem failure_of_run {limit : Nat} {call : Call} {e : SyntaxError}
    (h : Run limit call (.error e)) :
    Failure call.place (fun a => Run limit (call.at a) (.error e)) call.Begins e := by
  generalize ho : Except.error e = o at h
  induction h generalizing e with
  | enterTooDeep | negationTooTall | joinTooTall =>
    obtain rfl := Except.error.inj ho
    exact .nestingTooDeep _ _
  | @groupUnclosed s inner hs hd run hr =>
    obtain rfl := Except.error.inj ho
    obtain ⟨l, p, hp, hread⟩ := exists_phrase_takes run (Nat.zero_le _)
    have hend : Failure inner.next (fun b => b.current = inner.next.current)
        (fun tokens => Level.term.Begins (s.current :: (p.tokens ++ tokens)))
        (inner.next.current.misfit afterGroup) := by
      refine Failure.here (List.cons_ne_nil _ _) ?_ (fun _ hb => hb)
        (begins_of_mem_afterGroup hs p)
      simp [afterGroup, hp.current_ne_connective, hr]
    have hinside : Takes (s.current :: p.tokens) s inner.next fun a c =>
        a.current = s.current ∧ a.depth = s.depth ∧
          Run limit (.expression 0 a.advance.enter) (.ok ⟨inner.query, inner.height, c⟩) := by
      refine (takes_enter (by simp [hs])).append hread ?_
      rintro a _ c ⟨ha, hdepth, rfl⟩ hrun
      exact ⟨ha, hdepth, hrun⟩
    refine hend.behind hinside ?_ fun tokens htokens => htokens
    rintro a b ⟨ha, hdepth, hrun⟩ hb
    have hfails := Run.groupUnclosed (by rw [ha, hs]) (by rw [hdepth]; exact hd) hrun
      (by simpa only [hb] using hr)
    rw [unexpected_eq_misfit, hb] at hfails
    exact hfails
  | @groupFails s e' hs hd run ih =>
    obtain rfl := Except.error.inj ho
    have hopening := takes_enter (s := s) (by simp [hs])
    refine (ih rfl).behind hopening ?_ ?_
    · rintro a _ ⟨ha, hdepth, rfl⟩ hfails
      exact Run.groupFails (by rw [ha, hs]) (by rw [hdepth]; exact hd) hfails
    · intro tokens hbegins
      obtain ⟨l, _, hl⟩ := hbegins (Nat.zero_le _)
      exact begins_group hs hl.whole
  | @negationFails s e' hs hd run ih =>
    obtain rfl := Except.error.inj ho
    have hopening := takes_enter (s := s) (by simp [hs])
    refine (ih rfl).behind hopening ?_ ?_
    · rintro a _ ⟨ha, hdepth, rfl⟩ hfails
      exact Run.negationFails (by rw [ha, hs]) (by rw [hdepth]; exact hd) hfails
    · rintro tokens ⟨p, more, hmore⟩
      exact ⟨.negation s.current p hs, more, by simp [Phrase.tokens, ← hmore]⟩
  | conditionFails hs he =>
    obtain rfl := Except.error.inj ho
    exact (failure_of_fieldTerm hs he).imp (fun _ ha => .conditionFails ha.1 ha.2) fun _ h => h
  | @noTerm s hparen hnot hname =>
    obtain rfl := Except.error.inj ho
    have hstart : s.current.kind ∉ termStart := by simp [termStart, hparen, hnot, hname]
    refine Failure.here (List.cons_ne_nil _ _) hstart (fun a ha => ?_)
      fun kind => begins_sample_of_mem_termStart
    have ha : a.current = s.current := ha
    rw [unexpected_eq_misfit, ← ha]
    rw [← ha] at hparen hnot hname
    exact .noTerm hparen hnot hname
  | @expression min s first o run _ _ ihm =>
    subst ho
    obtain ⟨read, hread⟩ := takes_of_run run
    obtain ⟨p, _, htokens⟩ := derived_of_run run
    obtain rfl := read_eq_of_tokens_eq hread.1 htokens
    refine (ihm rfl).behind hread (fun a b hfirst hfails => .expression hfirst hfails) ?_
    intro tokens hbegins hmin
    exact hbegins .term p hmin fun c _ => Nat.le_succ_of_le c.precedence_le
  | expressionFails _ ih =>
    obtain rfl := Except.error.inj ho
    exact (ih rfl).imp (fun a hfails => .expressionFails hfails)
      fun tokens hbegins hmin => ⟨.term, hmin, hbegins⟩
  | @join min left height s c right o hs hc run hh _ _ ihm =>
    subst ho
    have hsign := Takes.one (s := s) (by simp [hs])
    obtain ⟨l', p', hp', hread⟩ := exists_phrase_takes run (Nat.succ_le_succ c.precedence_le)
    have hoperand : c.operandLevel.precedence ≤ l'.precedence := by
      rw [c.precedence_operandLevel]
      exact hp'.level
    have hright : Takes (s.current :: p'.tokens) s right.next fun a b =>
        a.current = s.current ∧ Run limit (.expression (c.precedence + 1) a.advance)
          (.ok ⟨right.query, right.height, b⟩) := by
      refine hsign.append hread ?_
      rintro a _ b ⟨rfl, ha, _⟩ hrun
      exact ⟨ha, hrun⟩
    refine (ihm rfl).behind hright ?_ ?_
    · rintro a b ⟨ha, hrun⟩ hfails
      exact Run.join (by rw [ha, hs]) hc hrun hh hfails
    · intro tokens hbegins l p hmin hloose
      have hmore := hbegins (.chain c) (p.join c s.current p' hs (hloose c hs) hoperand) hc
        fun c' hc' => Nat.le_of_lt_succ (hp'.stops c' hc')
      rw [Phrase.tokens_join c p s.current p' hs (hloose c hs) hoperand] at hmore
      simpa using hmore
  | @joinFails min left height s c e' hs hc run ih =>
    obtain rfl := Except.error.inj ho
    have hsign := Takes.one (s := s) (by simp [hs])
    refine (ih rfl).behind hsign ?_ ?_
    · rintro a _ ⟨rfl, ha, _⟩ hfails
      exact Run.joinFails (by rw [ha, hs]) hc hfails
    · intro tokens hbegins l p hmin hloose
      obtain ⟨l', hl', p', more, hmore⟩ := hbegins (Nat.succ_le_succ c.precedence_le)
      have hoperand : c.operandLevel.precedence ≤ l'.precedence := by
        rw [c.precedence_operandLevel]
        exact hl'
      refine ⟨.chain c, hc, p.join c s.current p' hs (hloose c hs) hoperand, more, ?_⟩
      rw [Phrase.tokens_join c p s.current p' hs (hloose c hs) hoperand, ← hmore]
      simp
  | group | negation | condition | stop => cases ho

end Query.Parser

/-! ## Whole queries -/

namespace Query

open FieldFilter.Query.Parser FieldFilter.Query.Parser.Cursor

/-- A token list that the grammar accepts, at whatever depth: a phrase and its end of input. -/
def Accepted (tokens : List Token) : Prop :=
  ∃ (p : Phrase .whole) (last : Token), last.kind = .endOfInput ∧ tokens = p.tokens ++ [last]

/-- Tokens that can be continued to a list that the grammar accepts. -/
def Viable (tokens : List Token) : Prop := ∃ more, Accepted (tokens ++ more)

/-- The beginning of a query can be completed. -/
theorem viable_of_begins {tokens : List Token} (h : Level.whole.Begins tokens) :
    Viable tokens := by
  obtain ⟨p, more, hmore⟩ := h
  exact ⟨more ++ [Token.endAt 0], p, Token.endAt 0, rfl, by rw [← hmore, List.append_assoc]⟩

/-- What begins a viable list is viable. -/
theorem Viable.of_append {tokens more : List Token} (h : Viable (tokens ++ more)) :
    Viable tokens := by
  obtain ⟨rest, hrest⟩ := h
  exact ⟨more ++ rest, by rwa [← List.append_assoc]⟩

/-- Behind a whole query, a connective goes on and the end of input closes. -/
theorem viable_of_mem_afterQuery {l : Level} (p : Phrase l) :
    ∀ kind ∈ afterQuery, Viable (p.tokens ++ [Token.sample kind]) := by
  let whole : Phrase .whole := p.loosen .whole l.whole_le
  have hwhole : whole.tokens = p.tokens := Phrase.tokens_loosen ..
  rw [← hwhole]
  intro kind hkind
  simp only [afterQuery, List.mem_cons, List.not_mem_nil, or_false] at hkind
  rcases hkind with rfl | rfl | rfl
  · exact viable_of_begins (whole.begins_connective .and)
  · exact viable_of_begins (whole.begins_connective .or)
  · exact ⟨[], whole, Token.sample .endOfInput, rfl, List.append_nil _⟩

/-- A token list fails as its expression does, or behind it. -/
theorem failure_of_ofTokens {maxDepth : Nat} {tokens : List Token} {e : SyntaxError}
    (h : ofTokens maxDepth tokens = .error e) :
    Failure (Cursor.start tokens)
      (fun a => ∀ tokens', a = Cursor.start tokens' → ofTokens maxDepth tokens' = .error e)
      Viable e := by
  have run := run_outcome (min maxDepth maxDepthLimit) (.expression 0 (Cursor.start tokens))
  rw [ofTokens_eq_of_run run] at h
  cases ho : (Call.expression 0 (Cursor.start tokens)).outcome (min maxDepth maxDepthLimit) with
  | error e' =>
    rw [ho] at h run
    obtain rfl := Except.error.inj h
    refine (failure_of_run run).imp ?_ ?_
    · rintro _ hfails tokens' rfl
      rw [ofTokens_eq_of_run hfails]
      rfl
    · intro begun hbegins
      obtain ⟨l, _, hl⟩ := hbegins (Nat.zero_le _)
      exact viable_of_begins hl.whole
  | ok r =>
    rw [ho] at h run
    simp only [bind, Except.bind, Reading.closed] at h
    split at h
    · cases h
    · rename_i hopen
      obtain rfl := Except.error.inj h
      obtain ⟨l, p, hp, hread⟩ := exists_phrase_takes run (Nat.zero_le _)
      have hend : Failure r.next (fun b => b.current = r.next.current)
          (fun begun => Viable (p.tokens ++ begun)) (r.next.current.misfit afterQuery) := by
        refine Failure.here (List.cons_ne_nil _ _) ?_ (fun _ hb => hb) (viable_of_mem_afterQuery p)
        simp [afterQuery, hp.current_ne_connective, hopen]
      refine hend.behind hread ?_ fun _ hviable => hviable
      rintro _ b hrun hb tokens' rfl
      rw [ofTokens_eq_of_run hrun]
      simp only [bind, Except.bind, Reading.closed, hb, if_neg hopen, unexpected_eq_misfit]

/-- The parser never blames a token of a list that the grammar accepts: such a list is parsed, or
refused for its depth. -/
theorem Accepted.ne_misfit {tokens : List Token} (h : Accepted tokens) (maxDepth : Nat)
    (expected : List Token.Kind) (t : Token) :
    ofTokens maxDepth tokens ≠ .error (t.misfit expected) := by
  obtain ⟨p, last, hlast, rfl⟩ := h
  have hend : AtEnd [last] := by simpa [AtEnd] using hlast
  intro herror
  by_cases hbound : p.nesting ≤ min maxDepth maxDepthLimit ∧
      p.query.height ≤ min maxDepth maxDepthLimit
  · rw [ofTokens_of_le p hend hbound.1 hbound.2] at herror
    cases herror
  · obtain ⟨offset, hdeep⟩ := ofTokens_of_not_le p hend hbound
    rw [hdeep, Token.misfit] at herror
    split at herror <;> cases herror

/-- A list that goes on as the parsed one does, up to the token at which that one fails, is not
accepted by the grammar. -/
theorem not_viable_of_misfit {maxDepth : Nat} {tokens read : List Token} {t : Token}
    {expected : List Token.Kind} (h : Sees (read ++ [t]) (Cursor.start tokens) fun a =>
      ∀ tokens', a = Cursor.start tokens' →
        ofTokens maxDepth tokens' = .error (t.misfit expected)) : ¬Viable (read ++ [t]) := by
  rintro ⟨more, haccepted⟩
  have hshares : Shares (read ++ [t]) (Cursor.start tokens)
      (Cursor.start (read ++ [t] ++ more)) :=
    ⟨h.1, ⟨more ++ [_], (List.append_assoc ..).symm⟩, rfl⟩
  exact haccepted.ne_misfit maxDepth expected t (h.2 _ hshares _ rfl)

/-- An unexpected or unknown token is the first one with which the list, or the list with its end of
input supplied, cannot be continued to a query any more. What stands in front of it can be, with a
token of each of the expected kinds next; its own kind is none of them. The error tells the token
and its place, and it is an unknown token exactly if the kind is unknown. -/
theorem misfit_of_ofTokens {maxDepth : Nat} {tokens : List Token} {e : SyntaxError}
    (h : ofTokens maxDepth tokens = .error e)
    (he : (∃ expected found offset, e = .unexpectedToken expected found offset) ∨
      ∃ lexeme offset, e = .unknownToken lexeme offset) :
    ∃ (k : Nat) (t : Token), (Cursor.start tokens).stream[k]? = some t ∧
      Viable ((Cursor.start tokens).stream.take k) ∧
      ¬Viable ((Cursor.start tokens).stream.take (k + 1)) ∧
      if t.kind = .unknown then e = .unknownToken t.text t.offset
      else ∃ expected, e = .unexpectedToken expected t.description t.offset ∧
        t.kind ∉ expected ∧ ∀ kind ∈ expected, ∃ u : Token, u.kind = kind ∧
          Viable ((Cursor.start tokens).stream.take k ++ [u]) := by
  cases failure_of_ofTokens h with
  | invalidNumber lexeme offset => rcases he with ⟨_, _, _, he⟩ | ⟨_, _, he⟩ <;> cases he
  | nestingTooDeep limit offset => rcases he with ⟨_, _, _, he⟩ | ⟨_, _, he⟩ <;> cases he
  | misfit read t expected m =>
    obtain ⟨rest, hrest⟩ := m.sees.1
    have hstream : (Cursor.start tokens).stream = read ++ t :: rest := by
      rw [← hrest, List.append_assoc]
      rfl
    have htake : (Cursor.start tokens).stream.take (read.length + 1) = read ++ [t] := by
      rw [← hrest]
      exact List.take_left' (by simp)
    obtain ⟨kind, hkind⟩ := List.exists_mem_of_ne_nil expected m.ne_nil
    refine ⟨read.length, t, by simp [hstream], ?_, ?_, ?_⟩
    · rw [hstream, List.take_left]
      exact (m.begins kind hkind).of_append
    · rw [htake]
      exact not_viable_of_misfit m.sees
    · by_cases hunknown : t.kind = .unknown
      · rw [if_pos hunknown, Token.misfit, if_pos hunknown]
      · rw [if_neg hunknown, hstream, List.take_left]
        refine ⟨expected, by rw [Token.misfit, if_neg hunknown], m.notExpected, fun κ hκ => ?_⟩
        exact ⟨Token.sample κ, rfl, m.begins κ hκ⟩

/-- The tokens of `(a:x`, without an end of input. -/
def openGroup : List Token :=
  [⟨.leftParen, "(", 0⟩, ⟨.identifier, "a", 1⟩, ⟨.colon, ":", 2⟩, ⟨.identifier, "x", 3⟩]

/-- The end of input that is supplied behind an open group is the first misfit: the group could go
on with a connective or be closed. -/
theorem misfit_of_ofTokens_openGroup :
    ofTokens 5 openGroup = .error (.unexpectedToken afterGroup "end of input" 4) ∧
    ∃ (k : Nat) (t : Token), (Cursor.start openGroup).stream[k]? = some t ∧
      Viable ((Cursor.start openGroup).stream.take k) ∧
      ¬Viable ((Cursor.start openGroup).stream.take (k + 1)) ∧
      if t.kind = .unknown then
        SyntaxError.unexpectedToken afterGroup "end of input" 4 = .unknownToken t.text t.offset
      else ∃ expected,
        SyntaxError.unexpectedToken afterGroup "end of input" 4 =
          .unexpectedToken expected t.description t.offset ∧
        t.kind ∉ expected ∧ ∀ kind ∈ expected, ∃ u : Token, u.kind = kind ∧
          Viable ((Cursor.start openGroup).stream.take k ++ [u]) := by
  have inner : Run 5 (.expression 0 (Cursor.start openGroup).advance.enter)
      (.ok ⟨.leaf "a" (.equals (.identifier "x")), 0, ⟨[], 4, 1⟩⟩) :=
    .expression (.condition rfl rfl) (.stop fun c hc => by cases hc)
  have run : Run (min 5 maxDepthLimit) (.expression 0 (Cursor.start openGroup))
      (.error (.unexpectedToken afterGroup "end of input" 4)) :=
    .expressionFails (.groupUnclosed rfl (by decide) inner (by decide))
  have h : ofTokens 5 openGroup = .error (.unexpectedToken afterGroup "end of input" 4) := by
    rw [ofTokens_eq_of_run run]
    rfl
  exact ⟨h, misfit_of_ofTokens h (.inl ⟨_, _, _, rfl⟩)⟩

end Query

end FieldFilter
