import FieldFilter.Proofs.Query.Bookkeeping

/-!
# How deeply the readers call each other

Terms and expressions are read by functions that call each other, and the calls that are active at
the same time make up the stack. Joining is a loop inside the reader of expressions: it calls the
reader of the right sides, one round after the other, but is no call of its own.

How many calls are ever active at once depends on the depth limit alone, however long the input is.
Every group and every negation counts against the limit, and what is called between two of them is
bounded by the tightness of the connectives.
-/

namespace FieldFilter.Query

open FieldFilter.Query.Parser

/-- Four calls for each level of the limit, and four more. -/
theorem mostCalls_le (maxDepth : Nat) (tokens : List Token) :
    mostCalls maxDepth tokens ≤ 4 * (min maxDepth 256 + 1) := by
  obtain ⟨_, hfits, _⟩ := report_eq maxDepth tokens
  refine Nat.le_trans hfits.peak_le (Nat.le_trans (Nat.min_le_left _ _) ?_)
  simp only [Cursor.start, maxDepthLimit]
  omega

/-- Four calls are active even where no level is left: the term behind the `AND` is read for the
right side of the `AND`, which is read for the right side of the `OR`. -/
example : mostCalls 0 (tokenize "a:x OR b:y AND c:z") = 4 := by decide +kernel

/-- A parse with an allowance of calls gives up exactly if more calls are active at once. -/
theorem ofTokensWithin_eq (calls maxDepth : Nat) (tokens : List Token) :
    ofTokensWithin calls maxDepth tokens =
      if mostCalls maxDepth tokens ≤ calls then some (ofTokens maxDepth tokens) else none := by
  obtain ⟨_, _, _, _, hreport⟩ := report_eq maxDepth tokens
  rw [ofTokensWithin, hreport]
  split <;> rfl

/-- However long the input is, the calls that are active at once are never more than four for each
level of the depth limit, and four more. So a parse with an allowance, which gives up exactly if
more calls are active at once, ends with so many calls as it does without an allowance, and more of
them make no difference. -/
theorem callDepth_bounded (maxDepth : Nat) (tokens : List Token) :
    mostCalls maxDepth tokens ≤ 4 * (min maxDepth 256 + 1) ∧
    (∀ calls, ofTokensWithin calls maxDepth tokens =
      if mostCalls maxDepth tokens ≤ calls then some (ofTokens maxDepth tokens) else none) ∧
    ∀ calls, 4 * (min maxDepth 256 + 1) ≤ calls →
      ofTokensWithin calls maxDepth tokens = some (ofTokens maxDepth tokens) := by
  have hmost := mostCalls_le maxDepth tokens
  refine ⟨hmost, fun calls => ofTokensWithin_eq calls maxDepth tokens, fun calls hcalls => ?_⟩
  rw [ofTokensWithin_eq, if_pos (Nat.le_trans hmost hcalls)]

/-- In `NOT (a:x OR b:y AND c:z)` under a limit of two, the calls are the whole query, its term, the
term behind the `NOT`, the expression in the group, and three on the right sides. -/
theorem callDepth_bounded_negatedGroup :
    let tokens := tokenize "NOT (a:x OR b:y AND c:z)"
    4 * (min 2 256 + 1) ≤ 12 ∧ mostCalls 2 tokens = 7 ∧
      ofTokensWithin 6 2 tokens = none ∧
      ofTokensWithin 7 2 tokens = some (ofTokens 2 tokens) ∧
      ofTokensWithin 12 2 tokens = some (ofTokens 2 tokens) := by
  intro tokens
  have hmost : mostCalls 2 tokens = 7 := by decide +kernel
  obtain ⟨-, hrun, henough⟩ := callDepth_bounded 2 tokens
  refine ⟨by decide, hmost, ?_, ?_, henough 12 (by decide)⟩
  · rw [hrun, hmost]
    rfl
  · rw [hrun, hmost]
    rfl

end FieldFilter.Query
