import FieldFilter.Proofs.Query.Canonization
import FieldFilter.Proofs.Token.Parentheses

/-!
# Only needed parentheses

A pair of parentheses in a query text encloses a run of conditions. Of the runs that are enclosed in
some text of a query, the canonical text encloses those that the tree asks for and no other ones,
and every other text encloses these too. No pair can therefore be left out of a canonical text.

That the canonical text has no other pairs follows from the depth of its conditions: a phrase whose
conditions are no deeper than they must be has no group that its query does not ask for.
-/

namespace FieldFilter

open Token

/-! ## Enclosed runs of conditions -/

/-- The runs of conditions that pairs of parentheses enclose, each as the number of conditions in
front of its start and of its end. The pairs are listed as they close. Parentheses that are open in
front of the tokens are given by the number of conditions in front of each, the innermost first; a
closing parenthesis without an opening one is passed over. -/
def parenRuns : (opened : List Nat) → (seen : Nat) → List Token → List (Nat × Nat)
  | _, _, [] => []
  | opened, seen, t :: ts =>
    match t.kind with
    | .leftParen => parenRuns (seen :: opened) seen ts
    | .rightParen => opened.head?.toList.map (·, seen) ++ parenRuns opened.tail seen ts
    | .colon => parenRuns opened (seen + 1) ts
    | _ => parenRuns opened seen ts

/-- A token that is neither a parenthesis nor a colon is passed over. -/
theorem parenRuns_cons {t : Token} (ht : t.kind ∉ [.leftParen, .rightParen, .colon])
    (opened : List Nat) (seen : Nat) (ts : List Token) :
    parenRuns opened seen (t :: ts) = parenRuns opened seen ts := by
  simp only [List.mem_cons, List.not_mem_nil, or_false, not_or] at ht
  rw [parenRuns]
  split
  · exact absurd ‹_› ht.1
  · exact absurd ‹_› ht.2.1
  · exact absurd ‹_› ht.2.2
  · rfl

theorem Condition.SpelledBy.parenRuns_append {c : Condition} {body : List Token}
    (h : c.SpelledBy body) (opened : List Nat) (seen : Nat) (ts : List Token) :
    parenRuns opened seen (body ++ ts) = parenRuns opened seen ts :=
  h.passed (fun _ ts ht => parenRuns_cons ht opened seen ts) ts

namespace Phrase

/-- The runs of conditions in the groups of a phrase that has some conditions in front of it. -/
def groupRuns (start : Nat) {l : Level} : Phrase l → List (Nat × Nat)
  | condition .. => []
  | negation _ operand _ => operand.groupRuns start
  | group _ inner _ _ _ => inner.groupRuns start ++ [(start, start + inner.query.leafCount)]
  | single _ operand => operand.groupRuns start
  | joined _ left _ right _ =>
    left.groupRuns start ++ right.groupRuns (start + left.query.leafCount)

variable {l : Level}

/-- The pairs of parentheses of a phrase are its groups. -/
theorem parenRuns_append (p : Phrase l) (opened : List Nat) (seen : Nat) (ts : List Token) :
    parenRuns opened seen (p.tokens ++ ts) =
      p.groupRuns seen ++ parenRuns opened (seen + p.query.leafCount) ts := by
  induction p generalizing opened seen ts with
  | condition name colon body c hname hcolon hbody =>
    rw [tokens, List.cons_append, parenRuns_cons (by simp [hname]), List.cons_append, parenRuns]
    simp only [hcolon]
    exact hbody.parenRuns_append _ _ _
  | negation sign operand hsign ih =>
    rw [tokens, List.cons_append, parenRuns_cons (by simp [hsign]), ih]
    rfl
  | group opening inner closing hopening hclosing ih =>
    rw [tokens, List.cons_append, List.append_assoc, parenRuns]
    simp only [hopening]
    rw [ih, List.singleton_append, parenRuns]
    simp only [hclosing]
    rw [groupRuns, List.append_assoc]
    rfl
  | single c operand ih => exact ih opened seen ts
  | joined c left sign right hsign ihl ihr =>
    rw [tokens, List.append_assoc, ihl, List.cons_append, parenRuns_cons (by simp [hsign]), ihr,
      groupRuns, List.append_assoc, Nat.add_assoc]
    rfl

theorem parenRuns_tokens (p : Phrase l) : parenRuns [] 0 p.tokens = p.groupRuns 0 := by
  have h := p.parenRuns_append [] 0 []
  rw [List.append_nil] at h
  exact h.trans (List.append_nil _)

/-- The pairs of parentheses of a text are the groups of the phrase behind it. -/
theorem parenRuns_tokenize {text : String} {p : Phrase .whole} {stop : Nat}
    (h : tokenize text = p.tokens ++ [endAt stop]) :
    parenRuns [] 0 (tokenize text) = p.groupRuns 0 := by
  rw [h, p.parenRuns_append]
  exact List.append_nil _

/-- There are as many groups as opening parentheses. -/
theorem length_groupRuns (p : Phrase l) (start : Nat) :
    (p.groupRuns start).length = p.tokens.countP (·.kind = .leftParen) := by
  induction p generalizing start with
  | condition name colon body c hname hcolon hbody =>
    have hnone : body.countP (·.kind = .leftParen) = 0 := by
      rw [List.countP_eq_zero]
      intro t ht
      have hkind := hbody.kind_not_mem t ht
      simp_all
    simp [groupRuns, tokens, hname, hcolon, hnone]
  | negation sign operand hsign ih => simp [groupRuns, tokens, hsign, ih]
  | group opening inner closing hopening hclosing ih =>
    simp [groupRuns, tokens, hopening, hclosing, ih]
  | single c operand ih => exact ih start
  | joined c left sign right hsign ihl ihr => simp [groupRuns, tokens, hsign, ihl, ihr]

end Phrase

/-! ## Runs that a tree asks to enclose -/

namespace Query

/-- Runs with one more behind them if there are parentheses around all of it. -/
def encloseIf (needed : Bool) (run : Nat × Nat) (runs : List (Nat × Nat)) : List (Nat × Nat) :=
  if needed then runs ++ [run] else runs

/-- The run of all conditions of a query that has some conditions in front of it. -/
def run (start : Nat) (q : Query) : Nat × Nat := (start, start + q.leafCount)

/-- The runs of conditions around which the canonical text of a query has parentheses. -/
def neededRuns (start : Nat) : Query → List (Nat × Nat)
  | leaf _ _ => []
  | join c left right =>
    let middle := start + left.leafCount
    encloseIf (left.precedence < c.precedence) (left.run start) (left.neededRuns start)
      ++ encloseIf (right.precedence < c.precedence + 1) (right.run middle)
        (right.neededRuns middle)
  | not operand =>
    encloseIf (operand.precedence < 3) (operand.run start) (operand.neededRuns start)

/-- What a query asks for at a place of some level, parentheses around all of it included. -/
def neededRunsAt (l : Level) (start : Nat) (q : Query) : List (Nat × Nat) :=
  encloseIf (q.precedence < l.precedence) (q.run start) (q.neededRuns start)

/-- A whole query asks for no parentheses around all of it. -/
theorem neededRunsAt_whole (start : Nat) (q : Query) :
    q.neededRunsAt .whole start = q.neededRuns start :=
  if_neg (by simpa using q.not_precedence_lt_whole)

/-- In a chain of its own connective a pair asks for what its operands ask for. -/
theorem neededRunsAt_join (c : Connective) (left right : Query) (start : Nat) :
    (join c left right).neededRunsAt (.chain c) start =
      left.neededRunsAt (.chain c) start ++
        right.neededRunsAt c.operandLevel (start + left.leafCount) := by
  have htop : (join c left right).neededRunsAt (.chain c) start =
      (join c left right).neededRuns start :=
    if_neg (by simp [precedence, Level.precedence])
  rw [htop, neededRunsAt, neededRunsAt, c.precedence_operandLevel]
  rfl

/-- At a looser place no more is asked for. -/
theorem neededRunsAt_sublist {l l' : Level} (h : l.precedence ≤ l'.precedence) (start : Nat)
    (q : Query) : (q.neededRunsAt l start).Sublist (q.neededRunsAt l' start) := by
  unfold neededRunsAt encloseIf
  by_cases hloose : q.precedence < l.precedence
  · rw [if_pos (by simpa using hloose), if_pos (by simpa using Nat.lt_of_lt_of_le hloose h)]
  · rw [if_neg (by simpa using hloose)]
    split
    · exact List.sublist_append_left _ _
    · exact List.Sublist.refl _

end Query

namespace Phrase

open Query

variable {l : Level}

/-- Every phrase encloses the runs that its query asks to enclose. -/
theorem neededRunsAt_sublist_groupRuns (p : Phrase l) (start : Nat) :
    (p.query.neededRunsAt l start).Sublist (p.groupRuns start) := by
  induction p generalizing start with
  | condition => exact List.Sublist.refl _
  | negation sign operand hsign ih => exact ih start
  | group opening inner closing hopening hclosing ih =>
    have hinner := ih start
    rw [neededRunsAt_whole] at hinner
    rw [groupRuns, query, neededRunsAt, encloseIf]
    split
    · exact hinner.append (List.Sublist.refl _)
    · exact hinner.trans (List.sublist_append_left _ _)
  | single c operand ih =>
    refine (neededRunsAt_sublist ?_ start _).trans (ih start)
    rw [c.precedence_operandLevel]
    exact Nat.le_succ _
  | joined c left sign right hsign ihl ihr =>
    rw [query, neededRunsAt_join]
    exact (ihl start).append (ihr _)

/-- No condition of a phrase is deeper than the tree asks for at the level of the phrase. -/
def Tight (p : Phrase l) : Prop :=
  p.leafDepths = deepenIf (p.query.precedence < l.precedence) p.query.openings

/-- Depths that are greater by one are no lower bound. -/
theorem not_forall₂_map_succ_le (p : Phrase l) :
    ¬List.Forall₂ (· ≤ ·) (p.leafDepths.map (· + 1)) p.leafDepths := by
  intro h
  obtain ⟨n, ns, hdepths⟩ := List.exists_cons_of_ne_nil p.leafDepths_ne_nil
  rw [hdepths, List.map_cons, List.forall₂_cons] at h
  exact Nat.not_succ_le_self n h.1

/-- A group that is no deeper than it must be is needed, and so is all that is in it. -/
theorem Tight.group {opening closing : Token} {inner : Phrase .whole}
    {hopening : opening.kind = .leftParen} {hclosing : closing.kind = .rightParen}
    (h : (group opening inner closing hopening hclosing).Tight) :
    inner.query.precedence < 3 ∧ inner.Tight := by
  have hdepths : inner.leafDepths.map (· + 1) =
      deepenIf (inner.query.precedence < 3) inner.query.openings := h
  by_cases hloose : inner.query.precedence < 3
  · rw [deepenIf, if_pos (by simpa using hloose)] at hdepths
    refine ⟨hloose, ?_⟩
    rw [Tight, deepenIf_whole]
    exact List.map_injective_iff.2 (fun _ _ => Nat.succ.inj) hdepths
  · rw [deepenIf, if_neg (by simpa using hloose)] at hdepths
    have hle := inner.forall₂_openings_le
    rw [deepenIf_whole, ← hdepths] at hle
    exact absurd hle inner.not_forall₂_map_succ_le

/-- A chain of one operand that is no deeper than it must be asks its operand for as much. -/
theorem Tight.single {c : Connective} {operand : Phrase c.operandLevel}
    (h : (single c operand).Tight) :
    operand.Tight ∧ (operand.query.precedence < c.precedence ↔
      operand.query.precedence < c.operandLevel.precedence) := by
  have hdepths : operand.leafDepths =
      deepenIf (operand.query.precedence < c.precedence) operand.query.openings := h
  have hiff : operand.query.precedence < c.precedence ↔
      operand.query.precedence < c.operandLevel.precedence := by
    rw [c.precedence_operandLevel]
    refine ⟨Nat.lt_succ_of_lt, fun hlt => ?_⟩
    -- with the top connective of its own level the operand would need parentheses
    refine Decidable.byContradiction fun hnot => ?_
    have hle := operand.forall₂_openings_le
    rw [deepenIf, if_neg (by simpa using hnot)] at hdepths
    rw [deepenIf, c.precedence_operandLevel, if_pos (by simpa using hlt), ← hdepths] at hle
    exact operand.not_forall₂_map_succ_le hle
  refine ⟨?_, hiff⟩
  rw [Tight, hdepths]
  simp only [hiff]

/-- The operands of a chain that is no deeper than it must be are no deeper either. -/
theorem Tight.joined {c : Connective} {left : Phrase (.chain c)} {sign : Token}
    {right : Phrase c.operandLevel} {hsign : sign.kind = .connective c}
    (h : (joined c left sign right hsign).Tight) : left.Tight ∧ right.Tight := by
  have htop : deepenIf ((Query.join c left.query right.query).precedence < c.precedence)
      (Query.join c left.query right.query).openings =
        (Query.join c left.query right.query).openings := if_neg (by simp [Query.precedence])
  have hdepths : left.leafDepths ++ right.leafDepths =
      (Query.join c left.query right.query).openings := h.trans htop
  refine List.append_inj hdepths ?_ |>.imp id fun hright => ?_
  · exact left.forall₂_openings_le.length_eq.symm
  · rw [Tight, c.precedence_operandLevel]
    exact hright

/-- A phrase whose conditions are no deeper than they must be encloses the runs that its query asks
to enclose, and no other ones. -/
theorem groupRuns_of_tight (p : Phrase l) (h : p.Tight) (start : Nat) :
    p.groupRuns start = p.query.neededRunsAt l start := by
  induction p generalizing start with
  | condition => rfl
  | negation sign operand hsign ih =>
    have hoperand : operand.Tight :=
      List.map_injective_iff.2 (fun _ _ => Nat.succ.inj) h
    exact ih hoperand start
  | group opening inner closing hopening hclosing ih =>
    obtain ⟨hloose, hinner⟩ := Tight.group h
    have hterm : decide (inner.query.precedence < Level.term.precedence) = true :=
      decide_eq_true hloose
    rw [groupRuns, ih hinner, neededRunsAt_whole, query, neededRunsAt, encloseIf, if_pos hterm]
    rfl
  | single c operand ih =>
    obtain ⟨hoperand, hiff⟩ := Tight.single h
    have hsame : operand.query.neededRunsAt c.operandLevel start =
        operand.query.neededRunsAt (.chain c) start := by
      unfold neededRunsAt
      simp only [← hiff]
      rfl
    exact (ih hoperand start).trans hsame
  | joined c left sign right hsign ihl ihr =>
    obtain ⟨hleft, hright⟩ := Tight.joined h
    rw [groupRuns, ihl hleft, ihr hright, query, neededRunsAt_join]

end Phrase

namespace Query

/-! ## Canonical texts -/

/-- The pairs of parentheses in the canonical text of a query are those that the tree asks for. -/
theorem exists_tokenize_toString {q : Query} (hq : q.isSpellable = true) :
    ∃ (p : Phrase .whole) (stop : Nat), p.query = q ∧
      tokenize q.toString = p.tokens ++ [endAt stop] ∧ p.groupRuns 0 = q.neededRuns 0 := by
  have hspells := (spells_toString hq).loosen .whole (Level.whole_le _)
  obtain ⟨p, rfl, hdepths, stop, htokens⟩ := exists_tokenize_of_spells hspells
  have htight : p.Tight := hdepths.trans (p.query.deepenIf_whole _).symm
  exact ⟨p, stop, rfl, htokens, by rw [p.groupRuns_of_tight htight, neededRunsAt_whole]⟩

/-- A text of a query has at least as many opening parentheses as the query asks for. -/
theorem length_neededRuns_le (p : Phrase .whole) :
    (p.query.neededRuns 0).length ≤ p.tokens.countP (·.kind = .leftParen) := by
  rw [← p.length_groupRuns 0, ← neededRunsAt_whole]
  exact (p.neededRunsAt_sublist_groupRuns 0).length_le

/-- The opening parentheses of a phrase can be counted in its text. -/
theorem countP_tokens_eq {text : String} {p : Phrase .whole} {stop : Nat}
    (h : tokenize text = p.tokens ++ [endAt stop]) :
    p.tokens.countP (·.kind = .leftParen) = parensOpened false text.toList := by
  rw [← countP_leftParen_lex 0, ← tokenize_eq_lex, h, List.countP_append]
  rfl

/-- The tokens of a text of a query are all known. -/
theorem known_of_tokenize {text : String} {p : Phrase .whole} {stop : Nat}
    (h : tokenize text = p.tokens ++ [endAt stop]) :
    ∀ t ∈ lexBody 0 text.toList, t.kind ≠ .unknown := by
  have hbody : lexBody 0 text.toList = p.tokens := by
    rw [lexBody, ← tokenize_eq_lex, h, List.dropLast_concat]
  rw [hbody]
  exact fun t ht => Token.Kind.ne_unknown_of_isProper (p.isProper t ht)

/-- Without one of its pairs of parentheses the canonical text of a query spells another query, or
none. -/
theorem query_ne_of_remove_pair {q : Query} (hq : q.isSpellable = true)
    {before inner after : String} (htext : q.toString = before ++ "(" ++ inner ++ ")" ++ after)
    (hparen : ⟨.leftParen, "(", before.utf8ByteSize⟩ ∈ tokenize q.toString) {p : Phrase .whole}
    {stop : Nat} (h : tokenize (before ++ inner ++ after) = p.tokens ++ [endAt stop]) :
    p.query ≠ q := by
  rintro rfl
  obtain ⟨canonical, stop', hquery, htokens, hruns⟩ := exists_tokenize_toString hq
  have hcs : p.query.toString.toList =
      before.toList ++ '(' :: (inner.toList ++ ')' :: after.toList) := by
    rw [htext]
    simp
  have hcs' : (before ++ inner ++ after).toList =
      before.toList ++ (inner.toList ++ after.toList) := by
    simp
  have heven : Even (before.toList.count '"') := by
    have hmem := mem_lexBody_of_mem_tokenize hparen nofun
    have hknown := known_of_tokenize htokens
    rw [hcs] at hmem hknown
    exact even_count_of_known hmem (by simp [utf8Length_toList]) hknown
  have hremoved := parensOpened_remove_pair heven inner.toList after.toList
  have hcount := countP_tokens_eq htokens
  have hcount' := countP_tokens_eq h
  have hle := length_neededRuns_le p
  rw [← canonical.length_groupRuns 0, hruns, hcs, hremoved, ← hcs', ← hcount'] at hcount
  omega

/-- A canonical text has only the parentheses that are needed. Whatever tokens the grammar derives
for a query, for each pair of parentheses in the canonical text of the query they have one around
the same run of conditions. An opening parenthesis cannot be left out of the canonical text together
with a closing one behind it: what remains is no text of the query, and under no depth limit is it
parsed to the query. -/
theorem parenRuns_toString_sublist {q : Query} (hq : q.isSpellable = true) :
    (∀ p : Phrase .whole, p.query = q →
      (parenRuns [] 0 (tokenize q.toString)).Sublist (parenRuns [] 0 p.tokens)) ∧
    ∀ before inner after : String, q.toString = before ++ "(" ++ inner ++ ")" ++ after →
      ⟨.leftParen, "(", before.utf8ByteSize⟩ ∈ tokenize q.toString →
        (∀ (p : Phrase .whole) (stop : Nat),
          tokenize (before ++ inner ++ after) = p.tokens ++ [endAt stop] → p.query ≠ q) ∧
        ∀ maxDepth, parse maxDepth (before ++ inner ++ after) ≠ .ok q := by
  constructor
  · rintro p rfl
    obtain ⟨canonical, stop, hquery, htokens, hruns⟩ := exists_tokenize_toString hq
    rw [Phrase.parenRuns_tokenize htokens, hruns, p.parenRuns_tokens, ← neededRunsAt_whole]
    exact p.neededRunsAt_sublist_groupRuns 0
  · intro before inner after htext hparen
    refine ⟨fun p stop h => query_ne_of_remove_pair hq htext hparen h, fun maxDepth h => ?_⟩
    obtain ⟨p, hp, hbody⟩ := exists_phrase_of_parse h
    have htokens := lex_eq_lexBody_append 0 (before ++ inner ++ after).toList
    rw [← tokenize_eq_lex, ← hbody] at htokens
    exact query_ne_of_remove_pair hq htext hparen htokens hp

/-- The one pair of `NOT (a:x OR b:>=1.50)` encloses both conditions. A text with more pairs has one
around the same run, and without the pair only the first condition is negated. -/
theorem parenRuns_toString_negatedPair :
    negatedPair.isSpellable = true ∧ negatedPair.toString = "NOT (a:x OR b:>=1.50)" ∧
    parse 4 "NOT (((a:x) OR b:>=1.50))" = .ok negatedPair ∧
    (parenRuns [] 0 (tokenize "NOT (a:x OR b:>=1.50)")).Sublist
      (parenRuns [] 0 (lexBody 0 "NOT (((a:x) OR b:>=1.50))".toList)) ∧
    ⟨.leftParen, "(", 4⟩ ∈ tokenize "NOT (a:x OR b:>=1.50)" ∧
    ∀ maxDepth, parse maxDepth "NOT a:x OR b:>=1.50" ≠ .ok negatedPair := by
  have hq : negatedPair.isSpellable = true := rfl
  have htext : negatedPair.toString = "NOT (a:x OR b:>=1.50)" := by decide +kernel
  have hparse : parse 4 "NOT (((a:x) OR b:>=1.50))" = .ok negatedPair := by decide +kernel
  have hparen : ⟨.leftParen, "(", 4⟩ ∈ tokenize "NOT (a:x OR b:>=1.50)" := by decide +kernel
  obtain ⟨p, hp, hbody⟩ := exists_phrase_of_parse hparse
  obtain ⟨hruns, hremoved⟩ := parenRuns_toString_sublist hq
  have hremoved' := hremoved "NOT " "a:x OR b:>=1.50" "" htext
  rw [htext] at hruns hremoved'
  exact ⟨hq, htext, hparse, hbody ▸ hruns p hp, hparen, (hremoved' hparen).2⟩

/-- The conditions are numbered from zero, and a run is given by its first one and the one behind
its last. -/
example :
    parenRuns [] 0 (tokenize "NOT (((a:x) OR b:>=1.50))") = [(0, 1), (0, 2), (0, 2)] ∧
    negatedPair.neededRuns 0 = [(0, 2)] := by decide +kernel

end Query

end FieldFilter
