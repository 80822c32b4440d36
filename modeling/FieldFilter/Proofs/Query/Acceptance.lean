import FieldFilter.Proofs.Query.Grammar
import FieldFilter.Proofs.Query.Run

/-!
# What the parser accepts

The parser accepts a token list exactly if the grammar derives it within the depth limit, and the
tree that it returns is the one of the derivation. One direction runs the parser along a phrase,
with arbitrary tokens behind it that cannot continue the phrase; the other collects a phrase from
a run. A phrase that is too deep or too tall makes every run along it stop with that error.
-/

namespace FieldFilter.Query

namespace Parser

/-! ## Conditions -/

/-- A token that spells a value is read as that value. -/
theorem value_of_value? {t : Token} {v : Value} (h : t.value? = some v) (rest : List Token)
    (finish depth : Nat) : value ⟨t :: rest, finish, depth⟩ = .ok (v, ⟨rest, finish, depth⟩) := by
  obtain ⟨kind, text, offset⟩ := t
  cases kind <;> simp_all [Token.value?, value, Cursor.current, Cursor.advance]
  obtain ⟨d, hd, rfl⟩ := h
  simp [hd]

/-- A value that is read is spelled by the current token, which is stepped over. -/
theorem value?_of_value {s next : Cursor} {v : Value} (h : value s = .ok (v, next)) :
    s.current.value? = some v ∧ next = s.advance := by
  unfold value at h
  split at h
  · cases h
    simp [Token.value?, *]
  · cases h
    simp [Token.value?, *]
  · split at h
    · cases h
      simp [Token.value?, *]
    · cases h
  · cases h

/-- The current token stands at the front of the list unless it is an end of input. -/
theorem Cursor.tokens_eq_cons {s : Cursor} (h : s.current.kind ≠ .endOfInput) :
    s.tokens = s.current :: s.advance.tokens := by
  obtain ⟨tokens, finish, depth⟩ := s
  cases tokens with
  | nil => exact absurd rfl h
  | cons t ts => rfl

theorem Cursor.tokens_eq_cons_of_value? {s : Cursor} {v : Value} (h : s.current.value? = some v) :
    s.tokens = s.current :: s.advance.tokens :=
  tokens_eq_cons (Token.Kind.ne_endOfInput_of_isProper (Token.isProper_of_value? h))

/-- Where a value stands, a condition is an equality or a range. -/
theorem condition_of_value {s next : Cursor} {v : Value} (h : value s = .ok (v, next)) :
    condition s =
      if next.current.kind = .dots then
        (value next.advance).map fun (upper, next) => (.within ⟨v, upper⟩, next)
      else .ok (.equals v, next) := by
  have hv := (value?_of_value h).1
  have hk : s.current.kind.isValue = true := by
    unfold Token.value? at hv
    split at hv <;> simp_all [Token.Kind.isValue]
  unfold condition
  split
  · simp_all [Token.Kind.isValue]
  · simp_all [Token.Kind.isValue]
  · simp only [hk, if_true, h, bind, Except.bind]
    split
    · cases value next.advance <;> rfl
    · rfl

/-- Tokens that spell a condition are read as that condition, unless the dots of a range follow. -/
theorem condition_of_spelledBy {c : Condition} {body : List Token} (h : c.SpelledBy body)
    {rest : List Token} {finish depth : Nat}
    (hrest : (Cursor.mk rest finish depth).current.kind ≠ .dots) :
    condition ⟨body ++ rest, finish, depth⟩ = .ok (c, ⟨rest, finish, depth⟩) := by
  cases h with
  | quoted ht => simp [condition, Cursor.current, Cursor.advance, ht]
  | @compares op sign t v hsign ht =>
    have hv := value_of_value? ht rest finish depth
    simp [condition, Cursor.current, Cursor.advance, hsign, hv, bind, Except.bind]
  | equals ht =>
    have hv := value_of_value? ht rest finish depth
    rw [List.singleton_append, condition_of_value hv, if_neg hrest]
  | @within t dots u lower upper ht hdots hu =>
    have hv := value_of_value? ht (dots :: u :: rest) finish depth
    have hw := value_of_value? hu rest finish depth
    have hc : (Cursor.mk (dots :: u :: rest) finish depth).current.kind = .dots := hdots
    have ha : (Cursor.mk (dots :: u :: rest) finish depth).advance =
      ⟨u :: rest, finish, depth⟩ := rfl
    simp only [List.cons_append, List.nil_append]
    rw [condition_of_value hv, if_pos hc, ha, hw]
    rfl

/-- A condition that is read is spelled by the tokens that are stepped over. -/
theorem spelledBy_of_condition {s next : Cursor} {c : Condition}
    (h : condition s = .ok (c, next)) :
    ∃ body, c.SpelledBy body ∧ s.tokens = body ++ next.tokens ∧
      next = { s with tokens := next.tokens } := by
  unfold condition at h
  split at h
  · rename_i hk
    cases h
    exact ⟨[s.current], .quoted hk, Cursor.tokens_eq_cons (by simp [hk]), rfl⟩
  · rename_i op hk
    cases hv : value s.advance with
    | error e => simp [hv, bind, Except.bind] at h
    | ok r =>
      obtain ⟨v, next'⟩ := r
      simp only [hv, bind, Except.bind, Except.ok.injEq, Prod.mk.injEq] at h
      obtain ⟨rfl, rfl⟩ := h
      obtain ⟨ht, rfl⟩ := value?_of_value hv
      refine ⟨[s.current, s.advance.current], .compares hk ht, ?_, rfl⟩
      rw [Cursor.tokens_eq_cons (by simp [hk]),
        Cursor.tokens_eq_cons_of_value? ht]
      rfl
  · split at h
    · cases hv : value s with
      | error e => simp [hv, bind, Except.bind] at h
      | ok r =>
        obtain ⟨v, next'⟩ := r
        simp only [hv, bind, Except.bind] at h
        obtain ⟨ht, rfl⟩ := value?_of_value hv
        have hs := Cursor.tokens_eq_cons_of_value? ht
        split at h
        · rename_i hdots
          cases hu : value s.advance.advance with
          | error e => simp [hu] at h
          | ok r =>
            obtain ⟨u, next'⟩ := r
            simp only [hu, Except.ok.injEq, Prod.mk.injEq] at h
            obtain ⟨rfl, rfl⟩ := h
            obtain ⟨htu, rfl⟩ := value?_of_value hu
            refine ⟨[s.current, s.advance.current, s.advance.advance.current],
              .within ht hdots htu, ?_, rfl⟩
            rw [hs, Cursor.tokens_eq_cons (by simp [hdots]),
              Cursor.tokens_eq_cons_of_value? htu]
            rfl
        · simp only [Except.ok.injEq, Prod.mk.injEq] at h
          obtain ⟨rfl, rfl⟩ := h
          exact ⟨[s.current], .equals ht, hs, rfl⟩
    · cases h

/-- A name, a colon and a condition are read as a condition on the named field. -/
theorem fieldTerm_of_spelledBy {name colon : Token} {body : List Token} {c : Condition}
    (hcolon : colon.kind = .colon) (hbody : c.SpelledBy body) {rest : List Token}
    {finish depth : Nat} (hrest : (Cursor.mk rest finish depth).current.kind ≠ .dots) :
    fieldTerm ⟨name :: colon :: (body ++ rest), finish, depth⟩ =
      .ok (.leaf name.text c, ⟨rest, finish, depth⟩) := by
  have hk : (Cursor.mk (name :: colon :: (body ++ rest)) finish depth).advance.current.kind =
    .colon := hcolon
  have ha : (Cursor.mk (name :: colon :: (body ++ rest)) finish depth).advance.advance =
    ⟨body ++ rest, finish, depth⟩ := rfl
  unfold fieldTerm
  rw [if_pos hk, ha, condition_of_spelledBy hbody hrest]
  rfl

/-- A condition on a field that is read is a phrase of the grammar. -/
theorem exists_phrase_of_fieldTerm {s next : Cursor} {q : Query}
    (hs : s.current.kind = .identifier) (h : fieldTerm s = .ok (q, next)) :
    ∃ p : Phrase .term, p.query = q ∧ s.tokens = p.tokens ++ next.tokens := by
  unfold fieldTerm at h
  split at h
  · rename_i hcolon
    cases hc : condition s.advance.advance with
    | error e => simp [hc, bind, Except.bind] at h
    | ok r =>
      obtain ⟨c, next'⟩ := r
      simp only [hc, bind, Except.bind, Except.ok.injEq, Prod.mk.injEq] at h
      obtain ⟨rfl, rfl⟩ := h
      obtain ⟨body, hbody, htokens, _⟩ := spelledBy_of_condition hc
      refine ⟨.condition s.current s.advance.current body c hs hcolon hbody, rfl, ?_⟩
      rw [Cursor.tokens_eq_cons (by simp [hs]), Cursor.tokens_eq_cons (by simp [hcolon]), htokens]
      rfl
  · cases h

/-! ## From phrases to runs -/

/-- Reading a phrase succeeds: a term is read as its query, and an expression that starts with the
phrase goes on behind it. -/
def Passes (limit : Nat) {l : Level} (p : Phrase l) (rest : List Token) (finish depth : Nat) :
    Prop :=
  (l = .term → Run limit (.term ⟨p.tokens ++ rest, finish, depth⟩)
    (.ok ⟨p.query, p.query.height, ⟨rest, finish, depth⟩⟩)) ∧
  ∀ min ≤ l.precedence, ∀ o,
    Run limit (.climb min p.query p.query.height ⟨rest, finish, depth⟩) o →
      Run limit (.expression min ⟨p.tokens ++ rest, finish, depth⟩) o

/-- Reading a phrase fails because of the depth limit. -/
def Exceeds (limit : Nat) {l : Level} (p : Phrase l) (rest : List Token) (finish depth : Nat) :
    Prop :=
  (l = .term → ∃ offset, Run limit (.term ⟨p.tokens ++ rest, finish, depth⟩)
    (.error (.nestingTooDeep limit offset))) ∧
  ∀ min ≤ l.precedence, ∃ offset, Run limit (.expression min ⟨p.tokens ++ rest, finish, depth⟩)
    (.error (.nestingTooDeep limit offset))

/-- A term that is read as its phrase says passes. -/
theorem passes_of_run {limit : Nat} {p : Phrase .term} {rest : List Token} {finish depth : Nat}
    (h : Run limit (.term ⟨p.tokens ++ rest, finish, depth⟩)
      (.ok ⟨p.query, p.query.height, ⟨rest, finish, depth⟩⟩)) : Passes limit p rest finish depth :=
  ⟨fun _ => h, fun _ _ _ more => .expression h more⟩

/-- A term that is refused for its depth exceeds the limit. -/
theorem exceeds_of_run {limit offset : Nat} {p : Phrase .term} {rest : List Token}
    {finish depth : Nat} (h : Run limit (.term ⟨p.tokens ++ rest, finish, depth⟩)
      (.error (.nestingTooDeep limit offset))) : Exceeds limit p rest finish depth :=
  ⟨fun _ => ⟨offset, h⟩, fun _ _ => ⟨offset, .expressionFails h⟩⟩

/-- A phrase that passes is read as its query by an expression that must stop behind it. -/
theorem Passes.run_expression {limit : Nat} {l : Level} {p : Phrase l} {rest : List Token}
    {finish depth : Nat} (h : Passes limit p rest finish depth) {min : Nat}
    (hmin : min ≤ l.precedence)
    (hrest : ∀ c, (Cursor.mk rest finish depth).current.kind = .connective c →
      c.precedence < min) :
    Run limit (.expression min ⟨p.tokens ++ rest, finish, depth⟩)
      (.ok ⟨p.query, p.query.height, ⟨rest, finish, depth⟩⟩) :=
  h.2 min hmin _ (.stop hrest)

/-- A phrase within the depth limit passes, whatever stops it. -/
theorem passes_of_le {limit : Nat} {l : Level} (p : Phrase l) {rest : List Token}
    {finish depth : Nat} (hstop : l.Stops (Cursor.mk rest finish depth).current.kind)
    (hnesting : depth + p.nesting ≤ limit) (hheight : p.query.height ≤ limit) :
    Passes limit p rest finish depth := by
  induction p generalizing rest depth with
  | condition name colon body c hname hcolon hbody =>
    exact passes_of_run (.condition hname (fieldTerm_of_spelledBy hcolon hbody hstop.1))
  | negation sign operand hsign ih =>
    simp only [Phrase.nesting, Phrase.query, Query.height] at hnesting hheight
    have inner : Passes limit operand rest finish (depth + 1) :=
      ih hstop (by omega) (by omega)
    have hd : depth < limit := by omega
    exact passes_of_run (@Run.negation limit ⟨sign :: (operand.tokens ++ rest), finish, depth⟩ _
      hsign hd (inner.1 rfl) hheight)
  | group opening inner closing hopening hclosing ih =>
    simp only [Phrase.nesting, Phrase.query] at hnesting hheight
    have hcurrent : (Cursor.mk (closing :: rest) finish (depth + 1)).current.kind = .rightParen :=
      hclosing
    have hinner : Passes limit inner (closing :: rest) finish (depth + 1) :=
      ih (by simp [Level.Stops, hcurrent]) (by omega) hheight
    have hd : depth < limit := by omega
    have run := hinner.run_expression (Nat.zero_le _) (by simp [hcurrent])
    have htokens : (Phrase.group opening inner closing hopening hclosing).tokens ++ rest =
        opening :: (inner.tokens ++ closing :: rest) := by
      simp [Phrase.tokens]
    refine passes_of_run ?_
    rw [htokens]
    exact @Run.group limit ⟨opening :: (inner.tokens ++ closing :: rest), finish, depth⟩ _
      hopening hd run hcurrent
  | single c operand ih =>
    have inner := ih hstop.operand hnesting hheight
    refine ⟨by simp, fun min hmin o more => inner.2 min ?_ o more⟩
    rw [c.precedence_operandLevel]
    exact Nat.le_succ_of_le hmin
  | joined c left sign right hsign ihl ihr =>
    simp only [Phrase.nesting, Phrase.query, Query.height] at hnesting hheight
    have hcurrent : (Cursor.mk (sign :: (right.tokens ++ rest)) finish depth).current.kind =
      .connective c := hsign
    have hleft : Passes limit left (sign :: (right.tokens ++ rest)) finish depth :=
      ihl (hcurrent ▸ Level.stops_connective c) (by omega) (by omega)
    have hright : Passes limit right rest finish depth :=
      ihr hstop.operand (by omega) (by omega)
    have run := hright.run_expression (Nat.le_of_eq c.precedence_operandLevel.symm)
      fun c' hc' => Nat.lt_succ_of_le (hstop.2 c' hc')
    have htokens : (Phrase.joined c left sign right hsign).tokens ++ rest =
        left.tokens ++ sign :: (right.tokens ++ rest) := by
      simp [Phrase.tokens]
    refine ⟨by simp, fun min hmin o more => ?_⟩
    rw [htokens]
    exact hleft.2 min hmin o (.join hcurrent hmin run hheight more)

/-- A phrase beyond the depth limit makes reading fail. The depth of the place itself has to be
within the limit, because a condition looks at no limit at all. -/
theorem exceeds_of_not_le {limit : Nat} {l : Level} (p : Phrase l) {rest : List Token}
    {finish depth : Nat} (hstop : l.Stops (Cursor.mk rest finish depth).current.kind)
    (hdepth : depth ≤ limit) (hbound : ¬(depth + p.nesting ≤ limit ∧ p.query.height ≤ limit)) :
    Exceeds limit p rest finish depth := by
  induction p generalizing rest depth with
  | condition name colon body c hname hcolon hbody =>
    simp only [Phrase.nesting, Phrase.query, Query.height] at hbound
    omega
  | negation sign operand hsign ih =>
    simp only [Phrase.nesting, Phrase.query, Query.height] at hbound
    by_cases hd : limit ≤ depth
    · exact exceeds_of_run (.enterTooDeep (.inr hsign) hd)
    · have hd := Nat.not_le.1 hd
      by_cases hinner : depth + 1 + operand.nesting ≤ limit ∧ operand.query.height ≤ limit
      · have inner : Passes limit operand rest finish (depth + 1) :=
          passes_of_le operand hstop hinner.1 hinner.2
        exact exceeds_of_run (@Run.negationTooTall limit
          ⟨sign :: (operand.tokens ++ rest), finish, depth⟩ _ hsign hd (inner.1 rfl)
          (show limit ≤ operand.query.height by omega))
      · have inner : Exceeds limit operand rest finish (depth + 1) := ih hstop hd hinner
        obtain ⟨offset, run⟩ := inner.1 rfl
        exact exceeds_of_run (.negationFails hsign hd run)
  | group opening inner closing hopening hclosing ih =>
    simp only [Phrase.nesting, Phrase.query] at hbound
    have htokens : (Phrase.group opening inner closing hopening hclosing).tokens ++ rest =
        opening :: (inner.tokens ++ closing :: rest) := by
      simp [Phrase.tokens]
    by_cases hd : limit ≤ depth
    · exact exceeds_of_run (.enterTooDeep (.inl hopening) hd)
    · have hd := Nat.not_le.1 hd
      have hcurrent : (Cursor.mk (closing :: rest) finish (depth + 1)).current.kind =
        .rightParen := hclosing
      have hinner : Exceeds limit inner (closing :: rest) finish (depth + 1) :=
        ih (by simp [Level.Stops, hcurrent]) hd (by omega)
      obtain ⟨offset, run⟩ := hinner.2 0 (Nat.zero_le _)
      have failing : Run limit (.term ⟨opening :: (inner.tokens ++ closing :: rest), finish, depth⟩)
        (.error (.nestingTooDeep limit offset)) := .groupFails hopening hd run
      exact exceeds_of_run (htokens ▸ failing)
  | single c operand ih =>
    have inner := ih hstop.operand hdepth hbound
    refine ⟨by simp, fun min hmin => inner.2 min ?_⟩
    rw [c.precedence_operandLevel]
    exact Nat.le_succ_of_le hmin
  | joined c left sign right hsign ihl ihr =>
    simp only [Phrase.nesting, Phrase.query, Query.height] at hbound
    have hcurrent : (Cursor.mk (sign :: (right.tokens ++ rest)) finish depth).current.kind =
      .connective c := hsign
    have hsigned : (Level.chain c).Stops
        (Cursor.mk (sign :: (right.tokens ++ rest)) finish depth).current.kind :=
      hcurrent ▸ Level.stops_connective c
    have htokens : (Phrase.joined c left sign right hsign).tokens ++ rest =
        left.tokens ++ sign :: (right.tokens ++ rest) := by
      simp [Phrase.tokens]
    have htight := Nat.le_of_eq c.precedence_operandLevel.symm
    refine ⟨by simp, fun min hmin => ?_⟩
    rw [htokens]
    by_cases hl : depth + left.nesting ≤ limit ∧ left.query.height ≤ limit
    · have hleft := passes_of_le left hsigned hl.1 hl.2
      by_cases hr : depth + right.nesting ≤ limit ∧ right.query.height ≤ limit
      · have hright := passes_of_le right hstop.operand hr.1 hr.2
        have run := hright.run_expression htight fun c' hc' => Nat.lt_succ_of_le (hstop.2 c' hc')
        exact ⟨sign.offset, hleft.2 min hmin _ (.joinTooTall hcurrent hmin run
          (show limit ≤ max left.query.height right.query.height by omega))⟩
      · obtain ⟨offset, run⟩ := (ihr hstop.operand hdepth hr).2 _ htight
        exact ⟨offset, hleft.2 min hmin _ (.joinFails hcurrent hmin run)⟩
    · exact (ihl hsigned hdepth hl).2 min hmin

/-! ## From runs to phrases -/

/-- A phrase of a level at least as tight as `min`, behind which nothing joins as tightly. -/
structure Closes (min : Nat) {l : Level} (p : Phrase l) (r : Reading) : Prop where
  level : min ≤ l.precedence
  query : p.query = r.query
  stops : ∀ c, r.next.current.kind = .connective c → c.precedence < min

/-- What a call that succeeds has read. The left operand of a climb comes with a phrase of its own,
which has to be loose enough for the connective behind it. -/
def Derived : Call → Reading → Prop
  | .term s, r => ∃ p : Phrase .term, p.query = r.query ∧ s.tokens = p.tokens ++ r.next.tokens
  | .expression min s, r => min ≤ Level.term.precedence →
    ∃ (l : Level) (p : Phrase l), Closes min p r ∧ s.tokens = p.tokens ++ r.next.tokens
  | .climb min left _ s, r => ∀ (l : Level) (p : Phrase l), p.query = left →
    min ≤ l.precedence → (∀ c, s.current.kind = .connective c → c.precedence ≤ l.precedence) →
      ∃ (l' : Level) (p' : Phrase l'), Closes min p' r ∧
        p'.tokens ++ r.next.tokens = p.tokens ++ s.tokens

/-- A call that succeeds has read a phrase. -/
theorem derived_of_run {limit : Nat} {call : Call} {r : Reading}
    (h : Run limit call (.ok r)) : Derived call r := by
  generalize ho : Except.ok r = o at h
  induction h generalizing r with
  | @group s inner hs _ _ hr ih =>
    cases ho
    obtain ⟨l, p, hp, htokens⟩ := ih rfl (Nat.zero_le _)
    refine ⟨.group s.current (p.loosen .whole l.whole_le) inner.next.current hs hr,
      by simp [Phrase.query, hp.query], ?_⟩
    have hclosing : inner.next.tokens = inner.next.current :: inner.next.advance.tokens :=
      Cursor.tokens_eq_cons (by simp [hr])
    rw [Cursor.tokens_eq_cons (by simp [hs]), ← Cursor.tokens_enter, htokens, hclosing]
    simp [Phrase.tokens]
  | @negation s operand hs _ _ _ ih =>
    cases ho
    obtain ⟨p, hq, htokens⟩ := ih rfl
    refine ⟨.negation s.current p hs, by simp [Phrase.query, hq], ?_⟩
    rw [Cursor.tokens_eq_cons (by simp [hs]), ← Cursor.tokens_enter, htokens]
    rfl
  | condition hs hq =>
    cases ho
    exact exists_phrase_of_fieldTerm hs hq
  | @expression min s first o _ _ ihf ihm =>
    subst ho
    intro hmin
    obtain ⟨p, hq, htokens⟩ := ihf rfl
    obtain ⟨l, p', hp', htokens'⟩ := ihm rfl .term p hq hmin
      fun c _ => Nat.le_succ_of_le c.precedence_le
    exact ⟨l, p', hp', by rw [htokens, htokens']⟩
  | stop hs =>
    cases ho
    intro l p hq hmin _
    exact ⟨l, p, ⟨hmin, hq, hs⟩, rfl⟩
  | @join min left height s c right o hs hc _ _ _ ihr ihm =>
    subst ho
    intro l p hq hmin hloose
    have htight := Nat.succ_le_succ c.precedence_le
    obtain ⟨lr, pr, hpr, htokens⟩ := ihr rfl htight
    have hoperand : c.operandLevel.precedence ≤ lr.precedence := by
      rw [c.precedence_operandLevel]
      exact hpr.level
    have hchain : (Level.chain c).precedence ≤ l.precedence := hloose c hs
    let whole : Phrase (.chain c) := p.join c s.current pr hs hchain hoperand
    have hwhole : whole.query = .join c left right.query := by
      rw [Phrase.query_join, hq, hpr.query]
    obtain ⟨l', p', hp', htokens'⟩ := ihm rfl (.chain c) whole hwhole hc
      fun c' hc' => Nat.le_of_lt_succ (hpr.stops c' hc')
    have hsign : s.tokens = s.current :: s.advance.tokens :=
      Cursor.tokens_eq_cons (by simp [hs])
    refine ⟨l', p', hp', ?_⟩
    rw [htokens', hsign, htokens, Phrase.tokens_join, List.append_assoc, List.cons_append]
  | enterTooDeep | groupUnclosed | groupFails | negationTooTall | negationFails | conditionFails
  | noTerm | expressionFails | joinTooTall | joinFails => cases ho

end Parser

/-! ## Whole queries -/

open FieldFilter.Query.Parser

/-- Tokens at which the input ends: there are none left, or the first one is an end of input. -/
def AtEnd (tokens : List Token) : Prop := ∀ t ∈ tokens.head?, t.kind = .endOfInput

theorem kind_current_of_atEnd {rest : List Token} (h : AtEnd rest) (finish depth : Nat) :
    (Cursor.mk rest finish depth).current.kind = .endOfInput := by
  cases rest with
  | nil => rfl
  | cons t ts => exact h t rfl

/-- The end of a token list stops every phrase. -/
theorem stops_of_atEnd {rest : List Token} (h : AtEnd rest) (l : Level) (finish depth : Nat) :
    l.Stops (Cursor.mk rest finish depth).current.kind := by
  rw [kind_current_of_atEnd h]
  exact ⟨by simp, by simp⟩

/-- A phrase within the depth limit is parsed to its query. -/
theorem ofTokens_of_le {maxDepth : Nat} (p : Phrase .whole) {rest : List Token}
    (hrest : AtEnd rest) (hnesting : p.nesting ≤ min maxDepth maxDepthLimit)
    (hheight : p.query.height ≤ min maxDepth maxDepthLimit) :
    ofTokens maxDepth (p.tokens ++ rest) = .ok p.query := by
  have pass : Passes (min maxDepth maxDepthLimit) p rest
      (Cursor.start (p.tokens ++ rest)).finish 0 :=
    passes_of_le p (stops_of_atEnd hrest _ _ _) (by omega) hheight
  have run := pass.run_expression (Nat.zero_le _) (by simp [kind_current_of_atEnd hrest])
  rw [ofTokens_eq_of_run run]
  exact if_pos (kind_current_of_atEnd hrest _ _)

/-- A phrase beyond the depth limit is refused because of it. -/
theorem ofTokens_of_not_le {maxDepth : Nat} (p : Phrase .whole) {rest : List Token}
    (hrest : AtEnd rest) (hbound : ¬(p.nesting ≤ min maxDepth maxDepthLimit ∧
      p.query.height ≤ min maxDepth maxDepthLimit)) :
    ∃ offset, ofTokens maxDepth (p.tokens ++ rest) =
      .error (.nestingTooDeep (min maxDepth maxDepthLimit) offset) := by
  have exceeds : Exceeds (min maxDepth maxDepthLimit) p rest
      (Cursor.start (p.tokens ++ rest)).finish 0 :=
    exceeds_of_not_le p (stops_of_atEnd hrest _ _ _) (Nat.zero_le _) (by omega)
  obtain ⟨offset, run⟩ := exceeds.2 0 (Nat.zero_le _)
  refine ⟨offset, ?_⟩
  rw [ofTokens_eq_of_run run]
  rfl

/-- A token list that is parsed to a query starts with a phrase that spells it, and the input ends
behind the phrase. -/
theorem exists_phrase_of_ofTokens {maxDepth : Nat} {tokens : List Token} {q : Query}
    (h : ofTokens maxDepth tokens = .ok q) :
    ∃ (p : Phrase .whole) (rest : List Token),
      p.query = q ∧ tokens = p.tokens ++ rest ∧ AtEnd rest := by
  have run := run_outcome (min maxDepth maxDepthLimit) (.expression 0 (Cursor.start tokens))
  rw [ofTokens_eq_of_run run] at h
  cases ho : (Call.expression 0 (Cursor.start tokens)).outcome (min maxDepth maxDepthLimit) with
  | error e => simp [ho, bind, Except.bind] at h
  | ok r =>
    simp only [ho, bind, Except.bind, Reading.closed] at h
    split at h
    · rename_i hend
      cases h
      obtain ⟨l, p, hp, htokens⟩ := derived_of_run (run.of_eq ho) (Nat.zero_le _)
      refine ⟨p.loosen .whole l.whole_le, r.next.tokens, by simp [hp.query], ?_, ?_⟩
      · rw [Phrase.tokens_loosen]
        exact htokens
      · intro t ht
        obtain ⟨ts, hts⟩ : ∃ ts, r.next.tokens = t :: ts := by
          cases hn : r.next.tokens with
          | nil => simp [hn] at ht
          | cons u us => exact ⟨us, by simpa [hn] using ht⟩
        simpa [Cursor.current, hts] using hend
    · cases h

/-- What stands in front of an end of input is fixed by the list, if it has no other one. -/
theorem eq_of_append_eq_append {a b rest : List Token} {last : Token}
    (ha : ∀ t ∈ a, t.kind ≠ .endOfInput) (hb : ∀ t ∈ b, t.kind ≠ .endOfInput)
    (hrest : AtEnd rest) (hlast : last.kind = .endOfInput) (h : a ++ rest = b ++ [last]) :
    a = b := by
  induction a generalizing b with
  | nil =>
    cases b with
    | nil => rfl
    | cons t b =>
      obtain rfl : rest = t :: (b ++ [last]) := h
      exact absurd (hrest t rfl) (hb t List.mem_cons_self)
  | cons t a ih =>
    cases b with
    | nil =>
      have ht : t = last := (List.cons.inj h).1
      exact absurd (ht ▸ hlast) (ha t List.mem_cons_self)
    | cons u b =>
      obtain ⟨rfl, htail⟩ := List.cons.inj h
      rw [ih (fun t ht => ha t (List.mem_cons_of_mem _ ht))
        (fun t ht => hb t (List.mem_cons_of_mem _ ht)) htail]

/-- The grammar is unambiguous: phrases of the same tokens spell the same query. -/
theorem query_eq_of_tokens_eq (p p' : Phrase .whole) (h : p.tokens = p'.tokens) :
    p.query = p'.query := by
  -- Under a limit that admits both, the one run along their tokens ends in either query.
  have hpass (u : Phrase .whole) {limit : Nat} (hn : u.nesting ≤ limit)
      (hh : u.query.height ≤ limit) : Passes limit u [] 0 0 :=
    passes_of_le u (stops_of_atEnd (by simp [AtEnd]) _ _ _) (by omega) hh
  have hrun (u : Phrase .whole) {limit : Nat} (hn : u.nesting ≤ limit)
      (hh : u.query.height ≤ limit) := (hpass u hn hh).run_expression (Nat.zero_le _) (by
    simp [Cursor.current, Token.endAt])
  let limit := p.nesting + p.query.height + p'.nesting + p'.query.height
  have run : Run limit _ _ := hrun p (by omega) (by omega)
  have run' : Run limit _ _ := hrun p' (by omega) (by omega)
  rw [h] at run
  exact congrArg Reading.query (Except.ok.inj (run.unique run'))

/-- A token list that ends in its only end of input is parsed to a query exactly if the grammar
derives the query from it, the tree is no taller than the limit, and no token stands inside more
groups and negations than that. If a limit is exceeded, this is the error; if the grammar derives
no query at all, there is an error. The grammar derives at most one query. -/
theorem ofTokens_eq_ok_iff_derived (maxDepth : Nat) {body : List Token} {last : Token}
    (hbody : ∀ t ∈ body, t.kind ≠ .endOfInput) (hlast : last.kind = .endOfInput) :
    (∀ q, ofTokens maxDepth (body ++ [last]) = .ok q ↔
      ∃ p : Phrase .whole, p.tokens = body ∧ p.query = q ∧ q.height ≤ min maxDepth 256 ∧
        ∀ n ∈ p.depths, n ≤ min maxDepth 256) ∧
    (∀ p : Phrase .whole, p.tokens = body →
      ¬(p.query.height ≤ min maxDepth 256 ∧ ∀ n ∈ p.depths, n ≤ min maxDepth 256) →
        ∃ offset, ofTokens maxDepth (body ++ [last]) =
          .error (.nestingTooDeep (min maxDepth 256) offset)) ∧
    ((∀ p : Phrase .whole, p.tokens ≠ body) →
      ∃ e, ofTokens maxDepth (body ++ [last]) = .error e) ∧
    ∀ p p' : Phrase .whole, p.tokens = body → p'.tokens = body → p.query = p'.query := by
  have hend : AtEnd [last] := by simpa [AtEnd] using hlast
  have hphrase {q : Query} (h : ofTokens maxDepth (body ++ [last]) = .ok q) :
      ∃ p : Phrase .whole, p.tokens = body ∧ p.query = q := by
    obtain ⟨p, rest, hq, htokens, hrest⟩ := exists_phrase_of_ofTokens h
    have hproper (t : Token) (ht : t ∈ p.tokens) : t.kind ≠ .endOfInput :=
      Token.Kind.ne_endOfInput_of_isProper (p.isProper t ht)
    exact ⟨p, eq_of_append_eq_append hproper hbody hrest hlast htokens.symm, hq⟩
  refine ⟨fun q => ⟨fun h => ?_, ?_⟩, ?_, fun hnone => ?_, ?_⟩
  · obtain ⟨p, rfl, rfl⟩ := hphrase h
    by_cases hbound : p.nesting ≤ min maxDepth maxDepthLimit ∧
        p.query.height ≤ min maxDepth maxDepthLimit
    · exact ⟨p, rfl, rfl, hbound.2, (p.forall_depths_le_iff _).2 hbound.1⟩
    · obtain ⟨offset, he⟩ := ofTokens_of_not_le p hend hbound
      rw [h] at he
      cases he
  · rintro ⟨p, rfl, rfl, hheight, hdepths⟩
    exact ofTokens_of_le p hend ((p.forall_depths_le_iff _).1 hdepths) hheight
  · rintro p rfl hbound
    refine ofTokens_of_not_le p hend fun h => hbound ⟨h.2, ?_⟩
    exact (p.forall_depths_le_iff _).2 h.1
  · cases ho : ofTokens maxDepth (body ++ [last]) with
    | error e => exact ⟨e, rfl⟩
    | ok q =>
      obtain ⟨p, hp, _⟩ := hphrase ho
      exact absurd hp (hnone p)
  · intro p p' hp hp'
    exact query_eq_of_tokens_eq p p' (hp.trans hp'.symm)

/-- The tokens of `NOT (a:x)`, its end of input left out. -/
def negatedGroup : List Token :=
  [⟨.not, "NOT", 0⟩, ⟨.leftParen, "(", 4⟩, ⟨.identifier, "a", 5⟩, ⟨.colon, ":", 6⟩,
    ⟨.identifier, "x", 7⟩, ⟨.rightParen, ")", 8⟩]

/-- A condition in a negated group stands two levels deep: a limit of two admits it, one of one
does not. -/
theorem ofTokens_negatedGroup :
    (∀ t ∈ negatedGroup, t.kind ≠ .endOfInput) ∧ (Token.endAt 9).kind = .endOfInput ∧
    ofTokens 2 (negatedGroup ++ [Token.endAt 9]) =
      .ok (.not (.leaf "a" (.equals (.identifier "x")))) ∧
    ∃ offset, ofTokens 1 (negatedGroup ++ [Token.endAt 9]) =
      .error (.nestingTooDeep 1 offset) := by
  have hbody : ∀ t ∈ negatedGroup, t.kind ≠ .endOfInput := by decide
  have hlast : (Token.endAt 9).kind = .endOfInput := rfl
  let condition : Phrase .term := .condition ⟨.identifier, "a", 5⟩ ⟨.colon, ":", 6⟩
    [⟨.identifier, "x", 7⟩] (.equals (.identifier "x")) rfl rfl (.equals rfl)
  let p : Phrase .whole := .single .or (.single .and (.negation ⟨.not, "NOT", 0⟩
    (.group ⟨.leftParen, "(", 4⟩ (.single .or (.single .and condition)) ⟨.rightParen, ")", 8⟩
      rfl rfl) rfl))
  have htokens : p.tokens = negatedGroup := rfl
  refine ⟨hbody, hlast, ?_, ?_⟩
  · have h := (ofTokens_eq_ok_iff_derived 2 hbody hlast).1 p.query
    exact h.2 ⟨p, htokens, rfl, by decide, by decide⟩
  · have h := (ofTokens_eq_ok_iff_derived 1 hbody hlast).2.1 p htokens
    exact h (by decide)

end FieldFilter.Query
