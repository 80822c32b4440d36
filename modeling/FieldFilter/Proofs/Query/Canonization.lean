import FieldFilter.Proofs.Query.Spellable
import Mathlib.Data.List.Forall2

/-!
# Canonical texts of parsed queries

Some parentheses in a query text are needed and some are not; layout and leading zeros are a matter
of taste. The canonical text of the parsed query has only the parentheses that its tree asks for.
Every one of them stands in the source too, around the same conditions, so that no condition is
deeper in the canonical text than in the source. A depth limit that admits the source therefore
admits the canonical text, which is parsed back to the same query.
-/

namespace FieldFilter

open Token

/-! ## Needed parentheses stand in every text -/

namespace Query

theorem forall₂_map_succ {ds es : List Nat} (h : List.Forall₂ (· ≤ ·) ds es) :
    List.Forall₂ (· ≤ ·) (ds.map (· + 1)) (es.map (· + 1)) := by
  rw [List.forall₂_map_left_iff, List.forall₂_map_right_iff]
  exact h.imp fun _ _ => Nat.succ_le_succ

/-- Parentheses that are there make up for parentheses that are needed. -/
theorem forall₂_deepenIf_map_succ {ds es : List Nat} (h : List.Forall₂ (· ≤ ·) ds es)
    (needed : Bool) : List.Forall₂ (· ≤ ·) (deepenIf needed ds) (es.map (· + 1)) := by
  cases needed with
  | true => exact forall₂_map_succ h
  | false =>
    show List.Forall₂ (· ≤ ·) ds (es.map (· + 1))
    rw [List.forall₂_map_right_iff]
    exact h.imp fun _ _ => Nat.le_succ_of_le

/-- A place that asks for less is no deeper. -/
theorem forall₂_deepenIf_of_imp {ds es : List Nat} {needed needed' : Bool}
    (hneeded : needed = true → needed' = true)
    (h : List.Forall₂ (· ≤ ·) (deepenIf needed' ds) es) :
    List.Forall₂ (· ≤ ·) (deepenIf needed ds) es := by
  cases needed with
  | true =>
    rw [hneeded rfl] at h
    exact h
  | false =>
    cases needed' with
    | false => exact h
    | true =>
      have hdeep : List.Forall₂ (· ≤ ·) (ds.map (· + 1)) es := h
      rw [List.forall₂_map_left_iff] at hdeep
      exact hdeep.imp fun _ _ => Nat.le_of_succ_le

end Query

namespace Phrase

variable {l : Level}

/-- Around no condition does the canonical text of a query open more parentheses and negations than
a phrase of the query does, those that the place of the phrase asks for included. -/
theorem forall₂_openings_le (p : Phrase l) :
    List.Forall₂ (· ≤ ·) (Query.deepenIf (p.query.precedence < l.precedence) p.query.openings)
      p.leafDepths := by
  induction p with
  | condition name colon body c hname hcolon hbody => exact .cons (Nat.le_refl 0) .nil
  | negation sign operand hsign ih => exact Query.forall₂_map_succ ih
  | group opening inner closing hopening hclosing ih =>
    rw [Query.deepenIf_whole] at ih
    exact Query.forall₂_deepenIf_map_succ ih _
  | single c operand ih =>
    refine Query.forall₂_deepenIf_of_imp ?_ ih
    rw [c.precedence_operandLevel, decide_eq_true_eq, decide_eq_true_eq]
    exact Nat.lt_succ_of_lt
  | joined c left sign right hsign ihl ihr =>
    have htop : decide ((joined c left sign right hsign).query.precedence <
        (Level.chain c).precedence) = false := decide_eq_false (Nat.lt_irrefl _)
    rw [c.precedence_operandLevel] at ihr
    rw [htop]
    exact List.rel_append ihl ihr

end Phrase

/-! ## Parentheses alone -/

/-- For each condition of a query, the number of negations around it. -/
def Query.negations : Query → List Nat
  | leaf _ _ => [0]
  | join _ left right => left.negations ++ right.negations
  | not operand => operand.negations.map (· + 1)

theorem Query.length_negations (q : Query) : q.negations.length = q.leaves.length := by
  induction q with
  | leaf => rfl
  | join _ _ _ ihl ihr => simp [negations, leaves, ihl, ihr]
  | not _ ih => simpa [negations, leaves] using ih

namespace Phrase

variable {l : Level}

/-- For each condition of a phrase, the number of groups around it. -/
def leafGroups {l : Level} : Phrase l → List Nat
  | condition .. => [0]
  | negation _ operand _ => operand.leafGroups
  | group _ inner _ _ _ => inner.leafGroups.map (· + 1)
  | single _ operand => operand.leafGroups
  | joined _ left _ right _ => left.leafGroups ++ right.leafGroups

theorem length_leafGroups (p : Phrase l) : p.leafGroups.length = p.query.leaves.length := by
  induction p with
  | condition => rfl
  | negation _ _ _ ih => simpa [leafGroups, query, Query.leaves] using ih
  | group _ _ _ _ _ ih => simpa [leafGroups, query] using ih
  | single _ _ ih => exact ih
  | joined _ _ _ _ _ ihl ihr => simp [leafGroups, query, Query.leaves, ihl, ihr]

/-- What is around a condition is a group of the phrase or a negation of the query. -/
theorem leafDepths_eq_zipWith (p : Phrase l) :
    p.leafDepths = List.zipWith (· + ·) p.leafGroups p.query.negations := by
  induction p with
  | condition => rfl
  | negation sign operand hsign ih =>
    rw [leafDepths, leafGroups, query, Query.negations, ih, List.map_zipWith,
      List.zipWith_map_right]
    rfl
  | group opening inner closing hopening hclosing ih =>
    rw [leafDepths, leafGroups, query, ih, List.map_zipWith, List.zipWith_map_left]
    exact congrArg (fun f => List.zipWith f _ _) (by funext a b; omega)
  | single c operand ih => exact ih
  | joined c left sign right hsign ihl ihr =>
    have hlength : left.leafGroups.length = left.query.negations.length := by
      rw [length_leafGroups, Query.length_negations]
    rw [leafDepths, leafGroups, query, Query.negations, ihl, ihr, List.zipWith_append hlength]

end Phrase

/-- What is added on both sides can be left out. -/
theorem forall₂_of_zipWith_add {as bs ns : List Nat} (ha : as.length = ns.length)
    (hb : bs.length = ns.length)
    (h : List.Forall₂ (· ≤ ·) (List.zipWith (· + ·) as ns) (List.zipWith (· + ·) bs ns)) :
    List.Forall₂ (· ≤ ·) as bs := by
  induction ns generalizing as bs with
  | nil =>
    rw [List.length_eq_zero_iff.1 ha, List.length_eq_zero_iff.1 hb]
    exact .nil
  | cons n ns ih =>
    obtain ⟨a, as, rfl⟩ := List.exists_cons_of_length_eq_add_one ha
    obtain ⟨b, bs, rfl⟩ := List.exists_cons_of_length_eq_add_one hb
    rw [List.zipWith_cons_cons, List.zipWith_cons_cons, List.forall₂_cons] at h
    exact .cons (Nat.le_of_add_le_add_right h.1)
      (ih (Nat.succ.inj ha) (Nat.succ.inj hb) h.2)

/-- For each colon of a token list, and so for each condition, the number of parentheses that are
open around it, given the number of those that are open in front. -/
def parenDepths : Nat → List Token → List Nat
  | _, [] => []
  | opened, t :: ts =>
    match t.kind with
    | .leftParen => parenDepths (opened + 1) ts
    | .rightParen => parenDepths (opened - 1) ts
    | .colon => opened :: parenDepths opened ts
    | _ => parenDepths opened ts

/-- A token that is neither a parenthesis nor a colon is passed over. -/
theorem parenDepths_cons {t : Token} (ht : t.kind ∉ [.leftParen, .rightParen, .colon])
    (opened : Nat) (ts : List Token) : parenDepths opened (t :: ts) = parenDepths opened ts := by
  simp only [List.mem_cons, List.not_mem_nil, or_false, not_or] at ht
  rw [parenDepths]
  split
  · exact absurd ‹_› ht.1
  · exact absurd ‹_› ht.2.1
  · exact absurd ‹_› ht.2.2
  · rfl

/-- Behind the colon of a condition there is neither a parenthesis nor another colon. -/
theorem Condition.SpelledBy.kind_not_mem {c : Condition} {body : List Token}
    (h : c.SpelledBy body) : ∀ t ∈ body, t.kind ∉ [Kind.leftParen, .rightParen, .colon] := by
  have hvalue {t : Token} {v : Value} (ht : t.value? = some v) :
      t.kind ∉ [Kind.leftParen, .rightParen, .colon] := by
    unfold value? at ht
    split at ht <;> simp_all
  cases h with
  | quoted ht => simp [ht]
  | compares hsign ht => simpa [hsign] using hvalue ht
  | equals ht => simpa using hvalue ht
  | within ht hdots hu => simpa [hdots] using And.intro (hvalue ht) (hvalue hu)

/-- What passes over all tokens but parentheses and colons passes over a condition behind its
colon. -/
theorem Condition.SpelledBy.passed {α : Type} {f : List Token → α}
    (hf : ∀ t ts, t.kind ∉ [Kind.leftParen, .rightParen, .colon] → f (t :: ts) = f ts)
    {c : Condition} {body : List Token} (h : c.SpelledBy body) (ts : List Token) :
    f (body ++ ts) = f ts := by
  have hbody := h.kind_not_mem
  clear h
  induction body with
  | nil => rfl
  | cons t body ih =>
    rw [List.forall_mem_cons] at hbody
    rw [List.cons_append, hf t _ hbody.1, ih hbody.2]

theorem Condition.SpelledBy.parenDepths_append {c : Condition} {body : List Token}
    (h : c.SpelledBy body) (opened : Nat) (ts : List Token) :
    parenDepths opened (body ++ ts) = parenDepths opened ts :=
  h.passed (fun _ ts ht => parenDepths_cons ht opened ts) ts

/-- The open parentheses around the conditions of a phrase are its groups. -/
theorem Phrase.parenDepths_append {l : Level} (p : Phrase l) (opened : Nat) (ts : List Token) :
    parenDepths opened (p.tokens ++ ts) =
      p.leafGroups.map (opened + ·) ++ parenDepths opened ts := by
  induction p generalizing opened ts with
  | condition name colon body c hname hcolon hbody =>
    rw [tokens, List.cons_append, parenDepths_cons (by simp [hname]), List.cons_append,
      parenDepths]
    simp [hcolon, hbody.parenDepths_append, leafGroups]
  | negation sign operand hsign ih =>
    rw [tokens, List.cons_append, parenDepths_cons (by simp [hsign]), ih]
    rfl
  | group opening inner closing hopening hclosing ih =>
    have hmap : inner.leafGroups.map (opened + 1 + ·) =
        (inner.leafGroups.map (· + 1)).map (opened + ·) := by
      rw [List.map_map]
      exact congrArg (List.map · _) (by funext n; simp; omega)
    rw [tokens, List.cons_append, List.append_assoc, parenDepths]
    simp only [hopening]
    rw [ih, hmap, List.singleton_append, parenDepths]
    simp only [hclosing]
    rfl
  | single c operand ih => exact ih opened ts
  | joined c left sign right hsign ihl ihr =>
    rw [tokens, List.append_assoc, ihl, List.cons_append, parenDepths_cons (by simp [hsign]), ihr,
      leafGroups, List.map_append, List.append_assoc]

/-- The open parentheses around the conditions of a text are the groups of the phrase behind it. -/
theorem parenDepths_tokenize {text : String} {p : Phrase .whole} {stop : Nat}
    (h : tokenize text = p.tokens ++ [endAt stop]) :
    parenDepths 0 (tokenize text) = p.leafGroups := by
  rw [h, p.parenDepths_append]
  simp [parenDepths, endAt]

namespace Query

/-! ## Parsing canonical text -/

/-- The canonical text of a parsed query opens no more parentheses and negations around a condition
than a phrase of the query. -/
theorem forall₂_openings_leafDepths (p : Phrase .whole) :
    List.Forall₂ (· ≤ ·) p.query.openings p.leafDepths := by
  have h := p.forall₂_openings_le
  rw [deepenIf_whole] at h
  exact h

/-- Where one text is no deeper at any condition than another, it keeps to the limit of the
other. -/
theorem forall_le_of_forall₂ {ds es : List Nat} (h : List.Forall₂ (· ≤ ·) ds es) {limit : Nat}
    (hes : ∀ n ∈ es, n ≤ limit) : ∀ n ∈ ds, n ≤ limit := by
  induction h with
  | nil => simp
  | cons hd _ ih =>
    rw [List.forall_mem_cons] at hes ⊢
    exact ⟨Nat.le_trans hd hes.1, ih hes.2⟩

/-- A text that is parsed has a canonical text that is parsed under the same limit, to the same
query, which is written in the same way again. At no condition is the canonical text deeper in
parentheses than the source. -/
theorem parse_toString_of_parse {maxDepth : Nat} {text : String} {q : Query}
    (h : parse maxDepth text = .ok q) :
    parse maxDepth q.toString = .ok q ∧
    (parse maxDepth q.toString).map toString = .ok q.toString ∧
    List.Forall₂ (· ≤ ·) (parenDepths 0 (tokenize q.toString))
      (parenDepths 0 (tokenize text)) := by
  have hq := isSpellable_of_parse h
  obtain ⟨depths, hsource⟩ := spells_of_parse h
  obtain ⟨hheight, hdepths⟩ := bounds_of_parse h hsource
  obtain ⟨p, rfl, rfl, stop, htokens⟩ := exists_tokenize_of_spells hsource
  have hopenings := forall₂_openings_leafDepths p
  have hparse : parse maxDepth p.query.toString = .ok p.query :=
    (parse_toString hq maxDepth).1 ⟨hheight, forall_le_of_forall₂ hopenings hdepths⟩
  refine ⟨hparse, by rw [hparse]; rfl, ?_⟩
  -- The canonical text has a phrase too; the negations around a condition are those of the query
  -- in both, so that the groups alone compare as all that is around it does.
  have hcanonical := (spells_toString hq).loosen .whole (Level.whole_le _)
  obtain ⟨p', hp', hdepths', stop', htokens'⟩ := exists_tokenize_of_spells hcanonical
  rw [parenDepths_tokenize htokens, parenDepths_tokenize htokens']
  rw [← hdepths', p.leafDepths_eq_zipWith, p'.leafDepths_eq_zipWith, hp'] at hopenings
  refine forall₂_of_zipWith_add ?_ ?_ hopenings
  · rw [Phrase.length_leafGroups, hp', length_negations]
  · rw [Phrase.length_leafGroups, length_negations]

/-- The query of `a:x AND NOT b:1.5`. -/
def pairWithNegation : Query :=
  .join .and (.leaf "a" (.equals (.identifier "x")))
    (.not (.leaf "b" (.equals (.number ⟨false, 15, 1, by decide, by decide⟩))))

/-- Parentheses around a condition and around a negation are left out, and so is a leading zero. -/
theorem parse_toString_looseParentheses :
    parse 3 "((a:x)) AND (NOT (b:01.5))" = .ok pairWithNegation ∧
    pairWithNegation.toString = "a:x AND NOT b:1.5" ∧
    parse 3 "a:x AND NOT b:1.5" = .ok pairWithNegation ∧
    List.Forall₂ (· ≤ ·) (parenDepths 0 (tokenize "a:x AND NOT b:1.5"))
      (parenDepths 0 (tokenize "((a:x)) AND (NOT (b:01.5))")) := by
  have h : parse 3 "((a:x)) AND (NOT (b:01.5))" = .ok pairWithNegation := by decide +kernel
  have htext : pairWithNegation.toString = "a:x AND NOT b:1.5" := by decide +kernel
  have hcanonical := parse_toString_of_parse h
  rw [htext] at hcanonical
  exact ⟨h, htext, hcanonical.1, hcanonical.2.2⟩

/-- The conditions of these texts stand inside two pairs of parentheses and inside none. -/
example : parenDepths 0 (tokenize "((a:x)) AND (NOT (b:01.5))") = [2, 2] ∧
    parenDepths 0 (tokenize "a:x AND NOT b:1.5") = [0, 0] := by decide +kernel

end Query

end FieldFilter
