import FieldFilter.Proofs.Compilation.Composition
import FieldFilter.Proofs.Compilation.RaisedLimits
import FieldFilter.Proofs.Query.Canonization

/-!
# What the depth limit measures

Two measures of a query text are easy to see: how deep its parentheses nest, and how tall its tree
is. The parser keeps to a third one on its way down. It counts groups and negations together, so
that a text whose measures are both within the limit may still be refused, if parentheses and
negations stand around the same condition. Where they do not, the two measures decide, and a limit
that admits their sum admits the text in any case.
-/

namespace FieldFilter

open Token

/-! ## Nesting of parentheses -/

/-- The number of parentheses that are open behind a token of some kind. -/
def Token.Kind.openAfter (opened : Nat) : Token.Kind → Nat
  | leftParen => opened + 1
  | rightParen => opened - 1
  | _ => opened

/-- The greatest number of parentheses that are open at once, `opened` of them being open at
first. -/
def deepestParen (opened : Nat) : List Token → Nat
  | [] => opened
  | t :: ts => max opened (deepestParen (t.kind.openAfter opened) ts)

/-- The number of pairs of parentheses of a token list that stand around one another. -/
def parenNesting (tokens : List Token) : Nat := deepestParen 0 tokens

/-- What is open at the start counts. -/
theorem le_deepestParen (opened : Nat) (ts : List Token) : opened ≤ deepestParen opened ts := by
  cases ts with
  | nil => exact Nat.le_refl _
  | cons t ts => exact Nat.le_max_left _ _

/-- A token that is no parenthesis is passed over. -/
theorem deepestParen_cons {t : Token} {opened : Nat} (ht : t.kind.openAfter opened = opened)
    (ts : List Token) : deepestParen opened (t :: ts) = deepestParen opened ts := by
  rw [deepestParen, ht, Nat.max_eq_right (le_deepestParen opened ts)]

/-- Only parentheses change what is open. -/
theorem Token.Kind.openAfter_of_not_mem {kind : Kind}
    (h : kind ∉ [leftParen, rightParen, colon]) (opened : Nat) :
    kind.openAfter opened = opened := by
  unfold openAfter
  split <;> simp_all

/-- A condition opens no parenthesis. -/
theorem Condition.SpelledBy.deepestParen_append {c : Condition} {body : List Token}
    (h : c.SpelledBy body) (opened : Nat) (ts : List Token) :
    deepestParen opened (body ++ ts) = deepestParen opened ts :=
  h.passed (fun t ts ht => deepestParen_cons (t.kind.openAfter_of_not_mem ht opened) ts) ts

namespace Phrase

/-- The largest number of groups around one condition. -/
def groupNesting {l : Level} : Phrase l → Nat
  | condition .. => 0
  | negation _ operand _ => operand.groupNesting
  | group _ inner _ _ _ => inner.groupNesting + 1
  | single _ operand => operand.groupNesting
  | joined _ left _ right _ => max left.groupNesting right.groupNesting

variable {l : Level}

/-- The parentheses of a phrase nest as its groups do. -/
theorem deepestParen_append (p : Phrase l) (opened : Nat) (ts : List Token) :
    deepestParen opened (p.tokens ++ ts) =
      max (opened + p.groupNesting) (deepestParen opened ts) := by
  induction p generalizing opened ts with
  | condition name colon body c hname hcolon hbody =>
    have hrest := le_deepestParen opened ts
    rw [tokens, List.cons_append, List.cons_append, deepestParen_cons (by rw [hname]; rfl),
      deepestParen_cons (by rw [hcolon]; rfl), hbody.deepestParen_append]
    exact (Nat.max_eq_right hrest).symm
  | negation sign operand hsign ih =>
    rw [tokens, List.cons_append, deepestParen_cons (by rw [hsign]; rfl), ih]
    rfl
  | group opening inner closing hopening hclosing ih =>
    have hopened : opening.kind.openAfter opened = opened + 1 := by rw [hopening]; rfl
    have hclosed : closing.kind.openAfter (opened + 1) = opened := by rw [hclosing]; rfl
    rw [tokens, List.cons_append, List.append_assoc, deepestParen, hopened, ih,
      List.singleton_append, deepestParen, hclosed, groupNesting]
    omega
  | single c operand ih => exact ih opened ts
  | joined c left sign right hsign ihl ihr =>
    rw [tokens, List.append_assoc, List.cons_append, ihl,
      deepestParen_cons (by rw [hsign]; rfl), ihr, groupNesting]
    omega

/-- The parentheses of a text nest as deeply as the groups of its phrase. -/
theorem parenNesting_tokens {text : String} {p : Phrase .whole} {stop : Nat}
    (h : tokenize text = p.tokens ++ [endAt stop]) :
    parenNesting (tokenize text) = p.groupNesting := by
  have hend : deepestParen 0 [endAt stop] = 0 := rfl
  rw [parenNesting, h, p.deepestParen_append, hend]
  omega

/-- Some condition stands inside the largest number of groups. -/
theorem groupNesting_mem_leafGroups (p : Phrase l) : p.groupNesting ∈ p.leafGroups := by
  induction p with
  | condition => exact List.mem_singleton_self 0
  | negation _ _ _ ih => exact ih
  | group _ _ _ _ _ ih => exact List.mem_map_of_mem ih
  | single _ _ ih => exact ih
  | joined _ left _ right _ ihl ihr =>
    rw [groupNesting, leafGroups, List.mem_append]
    rcases Nat.le_total left.groupNesting right.groupNesting with h | h
    · rw [Nat.max_eq_right h]
      exact .inr ihr
    · rw [Nat.max_eq_left h]
      exact .inl ihl

/-- No condition stands inside more groups than that. -/
theorem le_groupNesting_of_mem_leafGroups (p : Phrase l) :
    ∀ n ∈ p.leafGroups, n ≤ p.groupNesting := by
  induction p with
  | condition => simp [leafGroups, groupNesting]
  | negation _ _ _ ih => exact ih
  | group _ _ _ _ _ ih => simpa [leafGroups, groupNesting] using ih
  | single _ _ ih => exact ih
  | joined _ left _ right _ ihl ihr =>
    intro n hn
    rw [groupNesting]
    rcases List.mem_append.1 hn with hn | hn
    · exact Nat.le_trans (ihl n hn) (Nat.le_max_left _ _)
    · exact Nat.le_trans (ihr n hn) (Nat.le_max_right _ _)

/-- Groups alone are no deeper than groups and negations together. -/
theorem groupNesting_le_nesting (p : Phrase l) : p.groupNesting ≤ p.nesting := by
  induction p with
  | condition => exact Nat.le_refl 0
  | negation _ _ _ ih => exact Nat.le_succ_of_le ih
  | group _ _ _ _ _ ih => exact Nat.succ_le_succ ih
  | single _ _ ih => exact ih
  | joined _ _ _ _ _ ihl ihr =>
    simp only [groupNesting, nesting]
    omega

end Phrase

/-- The negations around a condition are part of the height. -/
theorem Query.le_height_of_mem_negations (q : Query) : ∀ n ∈ q.negations, n ≤ q.height := by
  induction q with
  | leaf => simp [negations, height]
  | join _ _ _ ihl ihr =>
    intro n hn
    rw [height]
    rcases List.mem_append.1 hn with hn | hn
    · have := ihl n hn
      omega
    · have := ihr n hn
      omega
  | not _ ih => simpa [negations, height] using ih

/-! ## What is refused -/

namespace Query

/-- For each condition of a query, the parentheses that the text has open around it and the
negations that the query has around it. -/
def enclosures (text : String) (q : Query) : List (Nat × Nat) :=
  (parenDepths 0 (tokenize text)).zip q.negations

variable {text : String} {p : Phrase .whole} {stop : Nat}

/-- The depths of a phrase are the sums of what encloses its conditions. -/
theorem leafDepths_eq_map_enclosures (h : tokenize text = p.tokens ++ [endAt stop]) :
    p.leafDepths = (enclosures text p.query).map fun e => e.1 + e.2 := by
  rw [enclosures, parenDepths_tokenize h, p.leafDepths_eq_zipWith, List.map_zip_eq_zipWith]
  rfl

/-- What encloses a condition is bounded by the two measures. -/
theorem enclosures_le (h : tokenize text = p.tokens ++ [endAt stop]) :
    ∀ e ∈ enclosures text p.query, e.1 ≤ parenNesting (tokenize text) ∧ e.2 ≤ p.query.height := by
  intro e he
  rw [enclosures, parenDepths_tokenize h] at he
  obtain ⟨hgroups, hnegations⟩ := List.of_mem_zip he
  rw [Phrase.parenNesting_tokens h]
  exact ⟨p.le_groupNesting_of_mem_leafGroups _ hgroups,
    p.query.le_height_of_mem_negations _ hnegations⟩

/-- A text whose tokens are those of a phrase is refused exactly if the phrase nests too deep or its
tree is too tall. -/
theorem refusedForDepth_iff_of_phrase (maxDepth : Nat)
    (h : tokenize text = p.tokens ++ [endAt stop]) :
    RefusedForDepth (min maxDepth 256) (parse maxDepth text) ↔
      min maxDepth 256 < p.nesting ∨ min maxDepth 256 < p.query.height := by
  obtain ⟨hparsed, hrefused⟩ := parse_of_phrase maxDepth h
  rw [← Nat.not_le, ← Nat.not_le, ← Classical.not_and_iff_not_or_not]
  refine ⟨fun hrefusal hbound => ?_, hrefused⟩
  rw [hparsed hbound] at hrefusal
  exact not_refusedForDepth_ok _ _ hrefusal

/-- The parser counts the parentheses and the negations around a condition together. -/
theorem lt_nesting_iff (limit : Nat) (h : tokenize text = p.tokens ++ [endAt stop]) :
    limit < p.nesting ↔ ∃ e ∈ enclosures text p.query, limit < e.1 + e.2 := by
  rw [← Nat.not_le, ← p.forall_leafDepths_le_iff, leafDepths_eq_map_enclosures h]
  simp

/-- One of the two measures is beyond a limit: the nesting of the parentheses, or the height of the
tree. -/
def MeasuredBeyond (limit : Nat) (text : String) (q : Query) : Prop :=
  limit < parenNesting (tokenize text) ∨ limit < q.height

/-- What the depth limit refuses. A text that the grammar derives is refused if one of its measures
is beyond the limit, and besides if some condition has more parentheses and negations around it than
the limit, the two taken together; every other text is parsed. So the measures decide where no
condition has both around it, and a limit that admits their sum admits the text. -/
theorem refusedForDepth_iff (maxDepth : Nat) (h : tokenize text = p.tokens ++ [endAt stop]) :
    (RefusedForDepth (min maxDepth 256) (parse maxDepth text) ↔
      MeasuredBeyond (min maxDepth 256) text p.query ∨
        ∃ e ∈ enclosures text p.query, min maxDepth 256 < e.1 + e.2) ∧
    (¬RefusedForDepth (min maxDepth 256) (parse maxDepth text) →
      parse maxDepth text = .ok p.query) ∧
    ((∀ e ∈ enclosures text p.query, e.1 = 0 ∨ e.2 = 0) →
      (RefusedForDepth (min maxDepth 256) (parse maxDepth text) ↔
        MeasuredBeyond (min maxDepth 256) text p.query)) ∧
    (parenNesting (tokenize text) + p.query.height ≤ min maxDepth 256 →
      parse maxDepth text = .ok p.query) := by
  let limit := min maxDepth 256
  have hgroups : parenNesting (tokenize text) ≤ p.nesting :=
    Phrase.parenNesting_tokens h ▸ p.groupNesting_le_nesting
  have hrefused : RefusedForDepth limit (parse maxDepth text) ↔
      limit < p.nesting ∨ limit < p.query.height := refusedForDepth_iff_of_phrase maxDepth h
  have hmixed : limit < p.nesting ↔ ∃ e ∈ enclosures text p.query, limit < e.1 + e.2 :=
    lt_nesting_iff limit h
  have hparsed (hbound : ¬(limit < p.nesting ∨ limit < p.query.height)) :
      parse maxDepth text = .ok p.query := by
    rw [not_or, Nat.not_lt, Nat.not_lt] at hbound
    exact (parse_of_phrase maxDepth h).1 hbound
  refine ⟨?_, fun hnot => hparsed fun hbeyond => hnot (hrefused.2 hbeyond), fun hapart => ?_,
    fun hsum => hparsed ?_⟩
  · rw [hrefused, ← hmixed, MeasuredBeyond]
    omega
  · rw [hrefused]
    refine ⟨?_, Or.imp_left fun hdeep => Nat.lt_of_lt_of_le hdeep hgroups⟩
    rintro (hdeep | htall)
    · obtain ⟨e, he, hlimit⟩ := hmixed.1 hdeep
      obtain ⟨hopen, hnegated⟩ := enclosures_le h e he
      -- One of the two numbers is zero, so the other one alone is beyond the limit.
      rcases hapart e he with hzero | hzero
      · exact .inr (by omega)
      · exact .inl (by omega)
    · exact .inr htall
  · rintro (hdeep | htall)
    · obtain ⟨e, he, hlimit⟩ := hmixed.1 hdeep
      obtain ⟨hopen, hnegated⟩ := enclosures_le h e he
      omega
    · omega

/-- Two groups around one condition and a negation around the other one: the measures decide. -/
theorem refusedForDepth_iff_groupsApart :
    ∃ (p : Phrase .whole) (stop : Nat),
      tokenize "((a:x)) OR NOT a:y" = p.tokens ++ [endAt stop] ∧
      enclosures "((a:x)) OR NOT a:y" p.query = [(2, 0), (0, 1)] ∧
      MeasuredBeyond 1 "((a:x)) OR NOT a:y" p.query ∧
      RefusedForDepth 1 (parse 1 "((a:x)) OR NOT a:y") ∧
      ¬MeasuredBeyond 2 "((a:x)) OR NOT a:y" p.query ∧
      parse 2 "((a:x)) OR NOT a:y" = .ok p.query ∧
      parse 4 "((a:x)) OR NOT a:y" = .ok p.query := by
  let name (s : String) : Query := .leaf "a" (.equals (.identifier s))
  let q : Query := .join .or (name "x") (.not (name "y"))
  have hparse : parse 2 "((a:x)) OR NOT a:y" = .ok q := by decide +kernel
  have hnesting : parenNesting (tokenize "((a:x)) OR NOT a:y") = 2 := by decide +kernel
  have henclosures : enclosures "((a:x)) OR NOT a:y" q = [(2, 0), (0, 1)] := by decide +kernel
  have hheight : q.height = 2 := rfl
  obtain ⟨depths, hspells⟩ := spells_of_parse hparse
  obtain ⟨p, hp, -, stop, h⟩ := exists_tokenize_of_spells hspells
  have hone : MeasuredBeyond 1 "((a:x)) OR NOT a:y" p.query := .inl (by omega)
  have htwo : ¬MeasuredBeyond 2 "((a:x)) OR NOT a:y" p.query := by
    rw [MeasuredBeyond, hp]
    omega
  have hapart : ∀ e ∈ enclosures "((a:x)) OR NOT a:y" p.query, e.1 = 0 ∨ e.2 = 0 := by
    rw [hp, henclosures]
    decide
  refine ⟨p, stop, h, hp ▸ henclosures, hone, ((refusedForDepth_iff 1 h).2.2.1 hapart).2 hone, htwo,
    (refusedForDepth_iff 2 h).2.1 fun hrefused => htwo ?_, (refusedForDepth_iff 4 h).2.2.2 ?_⟩
  · exact ((refusedForDepth_iff 2 h).2.2.1 hapart).1 hrefused
  · rw [hp, hnesting, hheight]
    decide

/-- The two measures do not always decide. In `NOT (a:x)` the parentheses nest one deep and the tree
is of height one, and yet a limit of one refuses it. -/
theorem refusedForDepth_negatedGroup :
    ∃ (p : Phrase .whole) (stop : Nat), tokenize "NOT (a:x)" = p.tokens ++ [endAt stop] ∧
      parenNesting (tokenize "NOT (a:x)") = 1 ∧ p.query.height = 1 ∧
      parse 1 "NOT (a:x)" = .error (.nestingTooDeep 1 4) ∧
      ¬(RefusedForDepth (min 1 256) (parse 1 "NOT (a:x)") ↔
        MeasuredBeyond (min 1 256) "NOT (a:x)" p.query) := by
  let q : Query := .not (.leaf "a" (.equals (.identifier "x")))
  have hparse : parse 2 "NOT (a:x)" = .ok q := by decide +kernel
  have hrefused : parse 1 "NOT (a:x)" = .error (.nestingTooDeep 1 4) := by decide +kernel
  have hnesting : parenNesting (tokenize "NOT (a:x)") = 1 := by decide +kernel
  obtain ⟨depths, hspells⟩ := spells_of_parse hparse
  obtain ⟨p, hp, -, stop, h⟩ := exists_tokenize_of_spells hspells
  have hheight : p.query.height = 1 := by rw [hp]; rfl
  refine ⟨p, stop, h, hnesting, hheight, hrefused, fun hdecide => ?_⟩
  rcases hdecide.1 ⟨4, hrefused⟩ with hdeep | htall
  · rw [hnesting] at hdeep
    exact absurd hdeep (by decide)
  · rw [hheight] at htall
    exact absurd htall (by decide)

/-! ## Groups and negations in turn -/

/-- A condition with a number of negated groups around it. -/
def alternatedText : Nat → String
  | 0 => "a:x"
  | k + 1 => negatedText (alternatedText k)

/-- The query of such a text. -/
def alternated : Nat → Query
  | 0 => .leaf "a" (.equals (.identifier "x"))
  | k + 1 => .not (alternated k)

/-- Each negation of a group adds one to the height. -/
theorem height_alternated (k : Nat) : (alternated k).height = k := by
  induction k with
  | zero => rfl
  | succ k ih => rw [alternated, height, ih]

/-- All negations are around the one condition. -/
theorem negations_alternated (k : Nat) : (alternated k).negations = [k] := by
  induction k with
  | zero => rfl
  | succ k ih => rw [alternated, negations, ih, List.map_singleton]

/-- Each negation of a group adds one negation and one group. -/
theorem spells_alternatedText (k : Nat) :
    Spells .whole (alternatedText k).toList (alternated k) [2 * k] := by
  induction k with
  | zero => exact (spells_leaf rfl rfl).loosen .whole (Level.whole_le _)
  | succ k ih => exact spells_negatedText ih

/-- Groups and negations in turn are the worst case: both measures are `k`, and every limit below
their sum refuses the text. -/
theorem refusedForDepth_alternatedText_iff (maxDepth k : Nat) :
    parenNesting (tokenize (alternatedText k)) = k ∧ (alternated k).height = k ∧
    (RefusedForDepth (min maxDepth 256) (parse maxDepth (alternatedText k)) ↔
      min maxDepth 256 < 2 * k) := by
  obtain ⟨p, hp, hdepths, stop, h⟩ := exists_tokenize_of_spells (spells_alternatedText k)
  have hgroups : p.leafGroups = [k] := by
    have hlength : p.leafGroups.length = 1 := by
      rw [p.length_leafGroups, ← Query.length_negations, hp, negations_alternated]
      rfl
    obtain ⟨n, hn⟩ := List.length_eq_one_iff.1 hlength
    have hsum : [2 * k] = [n + k] := by
      rw [← hdepths, p.leafDepths_eq_zipWith, hn, hp, negations_alternated]
      rfl
    obtain rfl : n = k := by
      have := List.singleton_inj.1 hsum
      omega
    exact hn
  have hle (m : Nat) : p.nesting ≤ m ↔ 2 * k ≤ m := by
    rw [← p.forall_leafDepths_le_iff, hdepths, List.forall_mem_singleton]
  have hnesting : p.nesting = 2 * k :=
    Nat.le_antisymm ((hle _).2 (Nat.le_refl _)) ((hle _).1 (Nat.le_refl _))
  refine ⟨?_, height_alternated k, ?_⟩
  · rw [Phrase.parenNesting_tokens h]
    exact List.mem_singleton.1 (hgroups ▸ p.groupNesting_mem_leafGroups)
  · rw [refusedForDepth_iff_of_phrase maxDepth h, hp, height_alternated, hnesting]
    omega

end Query

end FieldFilter
