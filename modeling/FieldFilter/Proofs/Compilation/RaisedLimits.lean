import FieldFilter.Proofs.Compilation.Outcome

/-!
# Raising limits

A limit does nothing but refuse. The parser compares two depths with its limit, one on its way into
groups and negations and one on its way out of the tree, and goes on in the same way whatever the
limit, as long as neither of them is refused. So a higher limit lets a refused query go further and
leaves every other answer as it was, errors included.
-/

namespace FieldFilter

namespace Query

/-- The answer is a refusal because of the depth limit. -/
def RefusedForDepth {α : Type} (limit : Nat) (o : Except SyntaxError α) : Prop :=
  ∃ offset, o = .error (.nestingTooDeep limit offset)

theorem not_refusedForDepth_ok {α : Type} (limit : Nat) (a : α) :
    ¬RefusedForDepth limit (.ok a) := by
  rintro ⟨_, h⟩
  cases h

theorem refusedForDepth_error {α : Type} (limit offset : Nat) :
    RefusedForDepth (α := α) limit (.error (.nestingTooDeep limit offset)) :=
  ⟨offset, rfl⟩

namespace Parser

/-- A run that is not refused is a run under every higher limit: each test that it has passed is
passed there as well, and the failures of the calls in it are failures of the whole. -/
theorem Run.raise {limit limit' : Nat} (hle : limit ≤ limit') {call : Call}
    {o : Except SyntaxError Reading} (h : Run limit call o) (ho : ¬RefusedForDepth limit o) :
    Run limit' call o := by
  have hok (r : Reading) : ¬RefusedForDepth limit (.ok r) := not_refusedForDepth_ok limit r
  have hpasses {n : Nat} (hn : n < limit) : n < limit' := Nat.lt_of_lt_of_le hn hle
  induction h with
  | enterTooDeep | negationTooTall | joinTooTall =>
    exact absurd (refusedForDepth_error limit _) ho
  | group hs hd _ hr ih => exact .group hs (hpasses hd) (ih (hok _)) hr
  | groupUnclosed hs hd _ hr ih => exact .groupUnclosed hs (hpasses hd) (ih (hok _)) hr
  | groupFails hs hd _ ih => exact .groupFails hs (hpasses hd) (ih ho)
  | negation hs hd _ hh ih => exact .negation hs (hpasses hd) (ih (hok _)) (hpasses hh)
  | negationFails hs hd _ ih => exact .negationFails hs (hpasses hd) (ih ho)
  | condition hs hq => exact .condition hs hq
  | conditionFails hs he => exact .conditionFails hs he
  | noTerm hparen hnot hname => exact .noTerm hparen hnot hname
  | expression _ _ ihf ihm => exact .expression (ihf (hok _)) (ihm ho)
  | expressionFails _ ih => exact .expressionFails (ih ho)
  | stop hs => exact .stop hs
  | join hs hc _ hh _ ihr ihm => exact .join hs hc (ihr (hok _)) (hpasses hh) (ihm ho)
  | joinFails hs hc _ ih => exact .joinFails hs hc (ih ho)

end Parser

open FieldFilter.Query.Parser

/-- What is not refused under one depth limit is the same under any higher one. -/
theorem ofTokens_eq_of_le {d d' : Nat} (hle : d ≤ d') (tokens : List Token) :
    RefusedForDepth (min d maxDepthLimit) (ofTokens d tokens) ∨
      ofTokens d tokens = ofTokens d' tokens := by
  have hlimits : min d maxDepthLimit ≤ min d' maxDepthLimit := by omega
  have run := run_outcome (min d maxDepthLimit) (.expression 0 (Cursor.start tokens))
  by_cases hrefused : RefusedForDepth (min d maxDepthLimit)
      ((Call.expression 0 (Cursor.start tokens)).outcome (min d maxDepthLimit))
  · obtain ⟨offset, ho⟩ := hrefused
    left
    rw [ofTokens_eq_of_run run, ho]
    exact refusedForDepth_error _ offset
  · right
    rw [ofTokens_eq_of_run run, ofTokens_eq_of_run (run.raise hlimits hrefused)]

/-- All limits from the largest effective one on are the same. -/
theorem ofTokens_eq_of_maxDepthLimit_le {d : Nat} (hd : maxDepthLimit ≤ d) (tokens : List Token) :
    ofTokens d tokens = ofTokens maxDepthLimit tokens := by
  unfold ofTokens ofCursor
  rw [Nat.min_eq_right hd, Nat.min_self]

/-- A text that is parsed or fails under one depth limit does so under any higher one. -/
theorem parse_eq_of_le {d d' : Nat} (hle : d ≤ d') (text : String) :
    RefusedForDepth (min d maxDepthLimit) (parse d text) ∨ parse d text = parse d' text :=
  ofTokens_eq_of_le hle (tokenize text)

end Query

/-- What a text is compiled to, or why it is not, is the same under higher limits, unless it is one
of the limits that refuses the text. -/
theorem compile_eq_of_le {limits limits' : Limits} (schema : Schema) (text : String)
    (hlength : limits.maxQueryLength ≤ limits'.maxQueryLength)
    (hdepth : limits.maxDepth ≤ limits'.maxDepth) :
    compile limits schema text = .error (.tooLong text.utf8ByteSize limits.maxQueryLength) ∨
    (∃ offset, compile limits schema text =
      .error (.malformed (.nestingTooDeep (min limits.maxDepth 256) offset))) ∨
    compile limits schema text = compile limits' schema text := by
  unfold compile
  by_cases hblank : isBlank text
  · right; right
    rw [if_pos hblank, if_pos hblank]
  · rw [if_neg hblank, if_neg hblank]
    by_cases hlong : limits.maxQueryLength < text.utf8ByteSize
    · left
      rw [if_pos hlong]
    · have hlong' : ¬limits'.maxQueryLength < text.utf8ByteSize := by omega
      right
      rw [if_neg hlong, if_neg hlong']
      rcases Query.parse_eq_of_le hdepth text with ⟨offset, he⟩ | heq
      · left
        exact ⟨offset, by rw [he]; rfl⟩
      · right
        rw [heq]

/-- Raising limits changes no decision but a refusal by a limit. A token list is refused for its
depth or parsed, or found faulty, exactly as under any higher depth limit, and limits above 256 are
all the same. A text is refused for its length or depth, or it is compiled, or found faulty, exactly
as under limits that are both at least as high. -/
theorem decisions_of_raised_limits :
    (∀ (tokens : List Token) (d d' : Nat), d ≤ d' →
      (∃ offset, Query.ofTokens d tokens = .error (.nestingTooDeep (min d 256) offset)) ∨
      Query.ofTokens d tokens = Query.ofTokens d' tokens) ∧
    (∀ (tokens : List Token) (d d' : Nat), 256 ≤ d → 256 ≤ d' →
      Query.ofTokens d tokens = Query.ofTokens d' tokens) ∧
    ∀ (limits limits' : Limits) (schema : Schema) (text : String),
      limits.maxQueryLength ≤ limits'.maxQueryLength → limits.maxDepth ≤ limits'.maxDepth →
      (∀ p, compile limits schema text = .ok p → compile limits' schema text = .ok p) ∧
      ∀ e, compile limits schema text = .error e →
        (∃ length, e = .tooLong length limits.maxQueryLength) ∨
        (∃ offset, e = .malformed (.nestingTooDeep (min limits.maxDepth 256) offset)) ∨
        compile limits' schema text = .error e := by
  refine ⟨fun tokens d d' hle => Query.ofTokens_eq_of_le hle tokens, ?_, ?_⟩
  · intro tokens d d' hd hd'
    exact (Query.ofTokens_eq_of_maxDepthLimit_le hd tokens).trans
      (Query.ofTokens_eq_of_maxDepthLimit_le hd' tokens).symm
  · intro limits limits' schema text hlength hdepth
    have hsame := compile_eq_of_le schema text hlength hdepth
    constructor
    · intro p hp
      rw [hp] at hsame
      rcases hsame with h | ⟨_, h⟩ | h
      · cases h
      · cases h
      · exact h.symm
    · intro e he
      rw [he] at hsame
      rcases hsame with h | ⟨offset, h⟩ | h
      · exact .inl ⟨_, Except.error.inj h⟩
      · exact .inr (.inl ⟨offset, Except.error.inj h⟩)
      · exact .inr (.inr h.symm)

/-- The limits that a pair of conditions just meets, ten bytes and a height of one, raised to the
default ones. -/
theorem decisions_of_raised_limits_pair :
    (10 ≤ Limits.default.maxQueryLength ∧ 1 ≤ Limits.default.maxDepth) ∧
    compile ⟨10, 1⟩ textSchema "a:x OR a:x" = .ok (.join .or (nameCheck "x") (nameCheck "x")) ∧
    compile .default textSchema "a:x OR a:x" =
      .ok (.join .or (nameCheck "x") (nameCheck "x")) ∧
    Query.ofTokens 300 (tokenize "((a:x") = Query.ofTokens 1000 (tokenize "((a:x") ∧
    ((∃ offset, Query.ofTokens 1 (tokenize "((a:x") = .error (.nestingTooDeep 1 offset)) ∨
      Query.ofTokens 1 (tokenize "((a:x") = Query.ofTokens 2 (tokenize "((a:x")) := by
  have hlength : 10 ≤ Limits.default.maxQueryLength := by decide
  have hdepth : 1 ≤ Limits.default.maxDepth := by decide
  have h : compile ⟨10, 1⟩ textSchema "a:x OR a:x" =
      .ok (.join .or (nameCheck "x") (nameCheck "x")) :=
    @compile_toString ⟨10, 1⟩ textSchema (.join .or (.leaf "a" (.equals (.identifier "x")))
      (.leaf "a" (.equals (.identifier "x")))) rfl _ rfl (by decide) (by decide) (by decide)
  obtain ⟨hdeeper, hcapped, hcompiled⟩ := decisions_of_raised_limits
  refine ⟨⟨hlength, hdepth⟩, h, ?_, ?_, ?_⟩
  · exact (hcompiled ⟨10, 1⟩ .default textSchema _ hlength hdepth).1 _ h
  · exact hcapped _ 300 1000 (by decide) (by decide)
  · exact hdeeper _ 1 2 (by decide)

end FieldFilter
