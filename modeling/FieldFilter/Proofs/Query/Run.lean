import FieldFilter.Query.Parser

/-!
# Runs of the parser

The parser consists of three mutually recursive readers. A `Run` says of one call of a reader what
it yields, with one rule for each way that the call can go; a rule asks for the runs of the calls
that it makes in turn. Every call has exactly one outcome, so that a property of all parses is
proved by going through the rules once.
-/

namespace FieldFilter.Query.Parser

/-- A query that has been read, its height, and the place after it. -/
structure Reading where
  query : Query
  height : Nat
  next : Cursor
  deriving DecidableEq

/-- An operand without the bound on what follows it. -/
def Operand.reading {bound : Nat} (o : Operand bound) : Reading := ⟨o.query, o.height, o.next⟩

/-- A call of one of the readers. -/
inductive Call where
  | term (s : Cursor)
  | expression (min : Nat) (s : Cursor)
  | climb (min : Nat) (left : Query) (height : Nat) (s : Cursor)

/-- What a call yields under a depth limit. -/
def Call.outcome (limit : Nat) : Call → Except SyntaxError Reading
  | term s => (Parser.term limit s).map Operand.reading
  | expression min s => (Parser.expression limit min s).map Operand.reading
  | climb min left height s => (Parser.climb limit min left height s).map Operand.reading

/-- The ways in which a call can go under a depth limit. -/
inductive Run (limit : Nat) : Call → Except SyntaxError Reading → Prop
  | enterTooDeep {s : Cursor} (hs : s.current.kind = .leftParen ∨ s.current.kind = .not)
      (hd : limit ≤ s.depth) :
      Run limit (.term s) (.error (.nestingTooDeep limit s.current.offset))
  | group {s : Cursor} {r : Reading} (hs : s.current.kind = .leftParen) (hd : s.depth < limit)
      (inner : Run limit (.expression 0 s.advance.enter) (.ok r))
      (hr : r.next.current.kind = .rightParen) :
      Run limit (.term s) (.ok ⟨r.query, r.height, r.next.advance.leave⟩)
  | groupUnclosed {s : Cursor} {r : Reading} (hs : s.current.kind = .leftParen)
      (hd : s.depth < limit) (inner : Run limit (.expression 0 s.advance.enter) (.ok r))
      (hr : r.next.current.kind ≠ .rightParen) :
      Run limit (.term s) (.error (r.next.unexpected afterGroup))
  | groupFails {s : Cursor} {e : SyntaxError} (hs : s.current.kind = .leftParen)
      (hd : s.depth < limit) (inner : Run limit (.expression 0 s.advance.enter) (.error e)) :
      Run limit (.term s) (.error e)
  | negation {s : Cursor} {r : Reading} (hs : s.current.kind = .not) (hd : s.depth < limit)
      (operand : Run limit (.term s.advance.enter) (.ok r)) (hh : r.height < limit) :
      Run limit (.term s) (.ok ⟨.not r.query, r.height + 1, r.next.leave⟩)
  | negationTooTall {s : Cursor} {r : Reading} (hs : s.current.kind = .not)
      (hd : s.depth < limit) (operand : Run limit (.term s.advance.enter) (.ok r))
      (hh : limit ≤ r.height) :
      Run limit (.term s) (.error (.nestingTooDeep limit s.current.offset))
  | negationFails {s : Cursor} {e : SyntaxError} (hs : s.current.kind = .not)
      (hd : s.depth < limit) (operand : Run limit (.term s.advance.enter) (.error e)) :
      Run limit (.term s) (.error e)
  | condition {s next : Cursor} {q : Query} (hs : s.current.kind = .identifier)
      (hq : fieldTerm s = .ok (q, next)) : Run limit (.term s) (.ok ⟨q, 0, next⟩)
  | conditionFails {s : Cursor} {e : SyntaxError} (hs : s.current.kind = .identifier)
      (he : fieldTerm s = .error e) : Run limit (.term s) (.error e)
  | noTerm {s : Cursor} (hparen : s.current.kind ≠ .leftParen) (hnot : s.current.kind ≠ .not)
      (hname : s.current.kind ≠ .identifier) :
      Run limit (.term s) (.error (s.unexpected termStart))
  | expression {min : Nat} {s : Cursor} {r : Reading} {o : Except SyntaxError Reading}
      (first : Run limit (.term s) (.ok r))
      (more : Run limit (.climb min r.query r.height r.next) o) :
      Run limit (.expression min s) o
  | expressionFails {min : Nat} {s : Cursor} {e : SyntaxError}
      (first : Run limit (.term s) (.error e)) : Run limit (.expression min s) (.error e)
  | stop {min : Nat} {left : Query} {height : Nat} {s : Cursor}
      (hs : ∀ c, s.current.kind = .connective c → c.precedence < min) :
      Run limit (.climb min left height s) (.ok ⟨left, height, s⟩)
  | join {min : Nat} {left : Query} {height : Nat} {s : Cursor} {c : Connective} {r : Reading}
      {o : Except SyntaxError Reading} (hs : s.current.kind = .connective c)
      (hc : min ≤ c.precedence)
      (right : Run limit (.expression (c.precedence + 1) s.advance) (.ok r))
      (hh : max height r.height < limit)
      (more : Run limit (.climb min (.join c left r.query) (max height r.height + 1) r.next) o) :
      Run limit (.climb min left height s) o
  | joinTooTall {min : Nat} {left : Query} {height : Nat} {s : Cursor} {c : Connective}
      {r : Reading} (hs : s.current.kind = .connective c) (hc : min ≤ c.precedence)
      (right : Run limit (.expression (c.precedence + 1) s.advance) (.ok r))
      (hh : limit ≤ max height r.height) :
      Run limit (.climb min left height s) (.error (.nestingTooDeep limit s.current.offset))
  | joinFails {min : Nat} {left : Query} {height : Nat} {s : Cursor} {c : Connective}
      {e : SyntaxError} (hs : s.current.kind = .connective c) (hc : min ≤ c.precedence)
      (right : Run limit (.expression (c.precedence + 1) s.advance) (.error e)) :
      Run limit (.climb min left height s) (.error e)

/-! ## Every call has exactly one outcome -/

/-- The outcome of a term. -/
theorem outcome_term (limit : Nat) (s : Cursor) :
    (Call.term s).outcome limit =
      match s.current.kind with
      | .leftParen =>
        if limit ≤ s.depth then .error (.nestingTooDeep limit s.current.offset)
        else do
          let r ← (Call.expression 0 s.advance.enter).outcome limit
          if r.next.current.kind = .rightParen then
            .ok ⟨r.query, r.height, r.next.advance.leave⟩
          else .error (r.next.unexpected afterGroup)
      | .not =>
        if limit ≤ s.depth then .error (.nestingTooDeep limit s.current.offset)
        else do
          let r ← (Call.term s.advance.enter).outcome limit
          if limit ≤ r.height then .error (.nestingTooDeep limit s.current.offset)
          else .ok ⟨.not r.query, r.height + 1, r.next.leave⟩
      | .identifier => (fieldTerm s).map fun (q, next) => ⟨q, 0, next⟩
      | _ => .error (s.unexpected termStart) := by
  simp only [Call.outcome]
  rw [Parser.term]
  split
  · rename_i hs
    simp only [hs]
    split
    · rfl
    · cases Parser.expression limit 0 s.advance.enter with
      | error e => rfl
      | ok o =>
        simp only [bind, Except.bind, Except.map, Operand.reading]
        by_cases hr : o.next.current.kind = .rightParen <;> simp only [hr, reduceIte]
  · rename_i hs
    simp only [hs]
    split
    · rfl
    · cases Parser.term limit s.advance.enter with
      | error e => rfl
      | ok o =>
        simp only [bind, Except.bind, Except.map, Operand.reading]
        by_cases hh : limit ≤ o.height <;> simp only [hh, reduceIte]
  · rename_i hs
    simp only [hs]
    split
    · rename_i hq
      simp only [hq, Except.map, Operand.reading]
    · rename_i hq
      simp only [hq, Except.map]
  · rename_i hparen hnot hname
    split
    · exact absurd ‹_› hparen
    · exact absurd ‹_› hnot
    · exact absurd ‹_› hname
    · rfl

/-- The outcome of an expression. -/
theorem outcome_expression (limit min : Nat) (s : Cursor) :
    (Call.expression min s).outcome limit =
      (Call.term s).outcome limit >>= fun r =>
        (Call.climb min r.query r.height r.next).outcome limit := by
  simp only [Call.outcome]
  rw [Parser.expression]
  cases Parser.term limit s with
  | error e => rfl
  | ok o =>
    simp only [bind, Except.bind, Except.map, Operand.reading]
    cases Parser.climb limit min o.query o.height o.next <;> rfl

/-- The outcome of joining what follows to an operand. -/
theorem outcome_climb (limit min : Nat) (left : Query) (height : Nat) (s : Cursor) :
    (Call.climb min left height s).outcome limit =
      match s.current.kind with
      | .connective c =>
        if c.precedence < min then .ok ⟨left, height, s⟩
        else do
          let r ← (Call.expression (c.precedence + 1) s.advance).outcome limit
          if limit ≤ max height r.height then .error (.nestingTooDeep limit s.current.offset)
          else
            (Call.climb min (.join c left r.query) (max height r.height + 1) r.next).outcome limit
      | _ => .ok ⟨left, height, s⟩ := by
  simp only [Call.outcome]
  rw [Parser.climb]
  split
  · rename_i c hs
    simp only [hs]
    split
    · rfl
    · cases Parser.expression limit (c.precedence + 1) s.advance with
      | error e => rfl
      | ok o =>
        simp only [bind, Except.bind, Except.map, Operand.reading]
        by_cases hh : limit ≤ max height o.height
        · simp only [if_pos hh]
        · simp only [if_neg hh]
          cases Parser.climb limit min (.join c left o.query) (max height o.height + 1) o.next <;>
            rfl
  · rename_i hs
    split
    · exact absurd ‹_› (hs _)
    · rfl

/-- A run ends in the outcome of its call. -/
theorem Run.outcome_eq {limit : Nat} {call : Call} {o : Except SyntaxError Reading}
    (h : Run limit call o) : call.outcome limit = o := by
  induction h with
  | enterTooDeep hs hd =>
    rw [outcome_term]
    rcases hs with hs | hs <;> simp only [hs, if_pos hd]
  | group hs hd _ hr ih =>
    rw [outcome_term]
    simp only [hs, if_neg (Nat.not_le.2 hd), ih, bind, Except.bind, if_pos hr]
  | groupUnclosed hs hd _ hr ih =>
    rw [outcome_term]
    simp only [hs, if_neg (Nat.not_le.2 hd), ih, bind, Except.bind, if_neg hr]
  | groupFails hs hd _ ih =>
    rw [outcome_term]
    simp only [hs, if_neg (Nat.not_le.2 hd), ih, bind, Except.bind]
  | negation hs hd _ hh ih =>
    rw [outcome_term]
    simp only [hs, if_neg (Nat.not_le.2 hd), ih, bind, Except.bind, if_neg (Nat.not_le.2 hh)]
  | negationTooTall hs hd _ hh ih =>
    rw [outcome_term]
    simp only [hs, if_neg (Nat.not_le.2 hd), ih, bind, Except.bind, if_pos hh]
  | negationFails hs hd _ ih =>
    rw [outcome_term]
    simp only [hs, if_neg (Nat.not_le.2 hd), ih, bind, Except.bind]
  | condition hs hq =>
    rw [outcome_term]
    simp only [hs, hq, Except.map]
  | conditionFails hs he =>
    rw [outcome_term]
    simp only [hs, he, Except.map]
  | noTerm hparen hnot hname =>
    rw [outcome_term]
    split
    · exact absurd ‹_› hparen
    · exact absurd ‹_› hnot
    · exact absurd ‹_› hname
    · rfl
  | expression _ _ ihf ihm =>
    rw [outcome_expression, ihf]
    exact ihm
  | expressionFails _ ih =>
    rw [outcome_expression, ih]
    rfl
  | stop hs =>
    rw [outcome_climb]
    split
    · rename_i c hc
      rw [if_pos (hs c hc)]
    · rfl
  | join hs hc _ hh _ ihr ihm =>
    rw [outcome_climb]
    simp only [hs, if_neg (Nat.not_lt.2 hc), ihr, bind, Except.bind, if_neg (Nat.not_le.2 hh)]
    exact ihm
  | joinTooTall hs hc _ hh ih =>
    rw [outcome_climb]
    simp only [hs, if_neg (Nat.not_lt.2 hc), ih, bind, Except.bind, if_pos hh]
  | joinFails hs hc _ ih =>
    rw [outcome_climb]
    simp only [hs, if_neg (Nat.not_lt.2 hc), ih, bind, Except.bind]

/-- Two runs of one call end alike. -/
theorem Run.unique {limit : Nat} {call : Call} {o o' : Except SyntaxError Reading}
    (h : Run limit call o) (h' : Run limit call o') : o = o' :=
  h.outcome_eq.symm.trans h'.outcome_eq

/-- A run that ends at all ends in the outcome of its call. -/
theorem Run.to_outcome {limit : Nat} {call : Call} {o : Except SyntaxError Reading}
    (h : Run limit call o) : Run limit call (call.outcome limit) :=
  h.outcome_eq ▸ h

/-- The end of a run, once it is known to be the outcome of its call. -/
theorem Run.of_eq {limit : Nat} {call : Call} {o : Except SyntaxError Reading}
    (h : Run limit call (call.outcome limit)) (ho : call.outcome limit = o) :
    Run limit call o :=
  ho ▸ h

/-- Every call runs to its outcome. -/
theorem run_outcome (limit : Nat) (call : Call) : Run limit call (call.outcome limit) := by
  have readers := Parser.term.mutual_induct limit
    (fun s => Run limit (.term s) ((Call.term s).outcome limit))
    (fun min s => Run limit (.expression min s) ((Call.expression min s).outcome limit))
    (fun min left height s =>
      Run limit (.climb min left height s) ((Call.climb min left height s).outcome limit))
    ?enterGroup ?group ?enterNot ?negation ?condition ?conditionFails ?noTerm ?expression
    ?looser ?join ?stop
  · cases call with
    | term s => exact readers.1 s
    | expression min s => exact readers.2.1 min s
    | climb min left height s => exact readers.2.2 min left height s
  case enterGroup =>
    intro s hs hd
    exact Run.to_outcome (.enterTooDeep (.inl hs) hd)
  case group =>
    intro s hs hd ih
    have hd := Nat.not_le.1 hd
    cases ho : (Call.expression 0 s.advance.enter).outcome limit with
    | error e =>
      exact Run.to_outcome (.groupFails hs hd (ih.of_eq ho))
    | ok r =>
      by_cases hr : r.next.current.kind = .rightParen
      · exact Run.to_outcome (.group hs hd (ih.of_eq ho) hr)
      · exact Run.to_outcome (.groupUnclosed hs hd (ih.of_eq ho) hr)
  case enterNot =>
    intro s hs hd
    exact Run.to_outcome (.enterTooDeep (.inr hs) hd)
  case negation =>
    intro s hs hd ih
    have hd := Nat.not_le.1 hd
    cases ho : (Call.term s.advance.enter).outcome limit with
    | error e =>
      exact Run.to_outcome (.negationFails hs hd (ih.of_eq ho))
    | ok r =>
      by_cases hh : limit ≤ r.height
      · exact Run.to_outcome (.negationTooTall hs hd (ih.of_eq ho) hh)
      · exact Run.to_outcome (.negation hs hd (ih.of_eq ho) (Nat.not_le.1 hh))
  case condition =>
    intro s hs q next hq
    exact Run.to_outcome (.condition hs hq)
  case conditionFails =>
    intro s hs e he
    exact Run.to_outcome (.conditionFails hs he)
  case noTerm =>
    intro s hparen hnot hname
    exact Run.to_outcome (.noTerm hparen hnot hname)
  case expression =>
    intro min s ihf ihm
    cases hf : Parser.term limit s with
    | error e =>
      have ho : (Call.term s).outcome limit = .error e := by
        simp only [Call.outcome, hf, Except.map]
      exact Run.to_outcome (.expressionFails (ihf.of_eq ho))
    | ok first =>
      have ho : (Call.term s).outcome limit = .ok first.reading := by
        simp only [Call.outcome, hf, Except.map]
      exact Run.to_outcome (.expression (ihf.of_eq ho) (ihm first))
  case looser =>
    intro min left height s c hs hc
    refine Run.to_outcome (.stop fun c' hc' => ?_)
    obtain rfl : c = c' := by simpa [hs] using hc'
    exact hc
  case join =>
    intro min left height s c hs hc ihr ihm
    have hc := Nat.not_lt.1 hc
    cases hr : Parser.expression limit (c.precedence + 1) s.advance with
    | error e =>
      have ho : (Call.expression (c.precedence + 1) s.advance).outcome limit = .error e := by
        simp only [Call.outcome, hr, Except.map]
      exact Run.to_outcome (.joinFails hs hc (ihr.of_eq ho))
    | ok right =>
      have ho : (Call.expression (c.precedence + 1) s.advance).outcome limit =
          .ok right.reading := by
        simp only [Call.outcome, hr, Except.map]
      by_cases hh : limit ≤ max height right.height
      · exact Run.to_outcome (.joinTooTall hs hc (ihr.of_eq ho) hh)
      · exact Run.to_outcome (.join hs hc (ihr.of_eq ho) (Nat.not_le.1 hh) (ihm right))
  case stop =>
    intro min left height s hs
    exact Run.to_outcome (.stop fun c hc => absurd hc (hs c))

/-! ## Whole queries -/

/-- The query of a reading behind which the input has to end. -/
def Reading.closed (r : Reading) : Except SyntaxError Query :=
  if r.next.current.kind = .endOfInput then .ok r.query
  else .error (r.next.unexpected afterQuery)

/-- Parsing a token list is running the parser from its start and looking for the end of input. -/
theorem ofTokens_eq_of_run {maxDepth : Nat} {tokens : List Token}
    {o : Except SyntaxError Reading}
    (h : Run (min maxDepth maxDepthLimit) (.expression 0 (Cursor.start tokens)) o) :
    ofTokens maxDepth tokens = o >>= Reading.closed := by
  rw [← h.outcome_eq]
  unfold ofTokens ofCursor
  simp only [Call.outcome]
  cases Parser.expression (min maxDepth maxDepthLimit) 0 (Cursor.start tokens) <;> rfl

end FieldFilter.Query.Parser
