import FieldFilter.Proofs.Query.Canonization
import Mathlib.Data.List.Induction

/-!
# Summaries of a query

A query sums up its conditions in three ways: it lists its fields, answers whether it mentions one,
and counts its conditions. All three go over the conditions from left to right, and so they agree.
As conditions come out of a text in the order in which they stand there, one behind each colon, the
summaries can also be read off the tokens of the text.
-/

namespace FieldFilter

open Token

/-! ## Lists without repetitions -/

/-- A name at the end of a list is kept if it is new. -/
theorem eraseDups_concat (names : List String) (name : String) :
    (names ++ [name]).eraseDups =
      if name ∈ names then names.eraseDups else names.eraseDups ++ [name] := by
  rw [List.eraseDups_append]
  split
  · rename_i hname
    simp [List.removeAll, hname]
  · rename_i hname
    simp [List.removeAll, hname, List.eraseDups_cons]

/-- First occurrences are distinct. -/
theorem nodup_eraseDups (names : List String) : names.eraseDups.Nodup := by
  induction names using List.reverseRecOn with
  | nil => exact List.nodup_nil
  | append_singleton names name ih =>
    rw [eraseDups_concat]
    split
    · exact ih
    · rename_i hname
      refine List.nodup_append.2 ⟨ih, List.pairwise_singleton _ _, fun a ha b hb => ?_⟩
      obtain rfl := List.mem_singleton.1 hb
      rintro rfl
      exact hname (List.mem_eraseDups.1 ha)

/-- There are no more first occurrences than occurrences. -/
theorem length_eraseDups_le (names : List String) : names.eraseDups.length ≤ names.length := by
  induction names using List.reverseRecOn with
  | nil => exact Nat.le_refl 0
  | append_singleton names name ih =>
    rw [eraseDups_concat, List.length_append, List.length_singleton]
    split
    · exact Nat.le_succ_of_le ih
    · rw [List.length_append, List.length_singleton]
      exact Nat.succ_le_succ ih

/-- The names that are kept stand in the order of their first occurrences. -/
theorem pairwise_idxOf_eraseDups (names : List String) :
    names.eraseDups.Pairwise fun f g => names.idxOf f < names.idxOf g := by
  induction names using List.reverseRecOn with
  | nil => exact List.Pairwise.nil
  | append_singleton names name ih =>
    have hold {f : String} (hf : f ∈ names.eraseDups) :
        (names ++ [name]).idxOf f = names.idxOf f :=
      List.idxOf_append_of_mem (List.mem_eraseDups.1 hf)
    have hkept : names.eraseDups.Pairwise fun f g =>
        (names ++ [name]).idxOf f < (names ++ [name]).idxOf g := by
      refine List.Pairwise.imp_of_mem (fun hf hg hlt => ?_) ih
      rwa [hold hf, hold hg]
    rw [eraseDups_concat]
    split
    · exact hkept
    · rename_i hname
      refine List.pairwise_append.2 ⟨hkept, List.pairwise_singleton _ _, fun f hf g hg => ?_⟩
      obtain rfl := List.mem_singleton.1 hg
      have hnew : (names ++ [g]).idxOf g = names.length := by
        rw [List.idxOf_append_of_notMem hname, List.idxOf_cons_self, Nat.add_zero]
      rw [hold hf, hnew]
      exact List.idxOf_lt_length_of_mem (List.mem_eraseDups.1 hf)

/-! ## Fields of the conditions -/

namespace Query

/-- The fields of the conditions from left to right, as often as they are mentioned. -/
def mentions (q : Query) : List String := q.leaves.map Prod.fst

private theorem mentions_join (c : Connective) (left right : Query) :
    (join c left right).mentions = left.mentions ++ right.mentions :=
  List.map_append

/-- Adding the fields of a query goes on where a list without repetitions ends. -/
theorem addFields_eraseDups (names : List String) (q : Query) :
    q.addFields names.eraseDups = (names ++ q.mentions).eraseDups := by
  induction q generalizing names with
  | leaf field c =>
    have hmentions : (leaf field c).mentions = [field] := rfl
    rw [addFields, hmentions, eraseDups_concat]
    simp only [List.contains_iff_mem, List.mem_eraseDups]
  | join c left right ihl ihr =>
    rw [addFields, ihl, ihr, mentions_join, List.append_assoc]
  | not operand ih => exact ih names

/-- The fields of a query are the first occurrences among its mentions. -/
theorem fields_eq (q : Query) : q.fields = q.mentions.eraseDups :=
  q.addFields_eraseDups []

/-- A query references the fields that it mentions. -/
theorem references_iff (q : Query) (field : String) :
    q.references field = true ↔ field ∈ q.mentions := by
  induction q with
  | leaf name c =>
    have hmentions : (leaf name c).mentions = [name] := rfl
    rw [references, hmentions, List.mem_singleton, beq_iff_eq, eq_comm]
  | join c left right ihl ihr =>
    rw [references, Bool.or_eq_true, ihl, ihr, mentions_join, List.mem_append]
  | not operand ih => exact ih

/-- Every condition mentions one field. -/
theorem length_mentions (q : Query) : q.mentions.length = q.leafCount := by
  induction q with
  | leaf => rfl
  | join c left right ihl ihr => rw [mentions_join, List.length_append, ihl, ihr, leafCount]
  | not operand ih => exact ih

/-- Every query has a condition. -/
theorem leafCount_pos (q : Query) : 0 < q.leafCount := by
  induction q with
  | leaf => exact Nat.one_pos
  | join c left right ihl _ => exact Nat.add_pos_left ihl _
  | not operand ih => exact ih

/-- A query mentions some field. -/
theorem length_fields_pos (q : Query) : 0 < q.fields.length := by
  have hmentions : 0 < q.mentions.length := q.length_mentions.symm ▸ q.leafCount_pos
  obtain ⟨field, hfield⟩ := List.exists_mem_of_length_pos hmentions
  rw [fields_eq]
  exact List.length_pos_of_mem (List.mem_eraseDups.2 hfield)

end Query

/-! ## Names in front of colons -/

/-- The identifiers that stand directly in front of a colon, in order. -/
def colonNames : List Token → List String
  | name :: colon :: ts =>
    if name.kind = .identifier ∧ colon.kind = .colon then name.text :: colonNames (colon :: ts)
    else colonNames (colon :: ts)
  | _ => []

/-- A token that is no identifier is passed over. -/
theorem colonNames_cons_of_ne {t : Token} (ht : t.kind ≠ .identifier) (ts : List Token) :
    colonNames (t :: ts) = colonNames ts := by
  cases ts with
  | nil => rfl
  | cons u ts => rw [colonNames, if_neg fun h => ht h.1]

/-- A token that no colon follows is passed over. -/
theorem colonNames_cons_of_head (t : Token) {ts : List Token}
    (hts : ∀ u ∈ ts.head?, u.kind ≠ .colon) : colonNames (t :: ts) = colonNames ts := by
  cases ts with
  | nil => rfl
  | cons u ts => rw [colonNames, if_neg fun h => hts u rfl h.2]

/-- Tokens that have no colon among them or behind them are passed over. -/
theorem colonNames_append {body ts : List Token} (hbody : ∀ t ∈ body, t.kind ≠ .colon)
    (hts : ∀ u ∈ ts.head?, u.kind ≠ .colon) : colonNames (body ++ ts) = colonNames ts := by
  induction body with
  | nil => rfl
  | cons t body ih =>
    rw [List.forall_mem_cons] at hbody
    have hhead : ∀ u ∈ (body ++ ts).head?, u.kind ≠ .colon := by
      cases body with
      | nil => exact hts
      | cons u body =>
        rintro _ ⟨⟩
        exact hbody.2 u List.mem_cons_self
    rw [List.cons_append, colonNames_cons_of_head t hhead, ih hbody.2]

/-- There is no colon inside a condition. -/
theorem Condition.SpelledBy.kind_ne_colon {c : Condition} {body : List Token}
    (h : c.SpelledBy body) : ∀ t ∈ body, t.kind ≠ .colon := by
  intro t ht hcolon
  exact h.kind_not_mem t ht (by simp [hcolon])

namespace Phrase

variable {l : Level}

/-- The names in front of the colons of a phrase are the fields of its query. -/
theorem colonNames_append (p : Phrase l) {ts : List Token}
    (hts : ∀ u ∈ ts.head?, u.kind ≠ .colon) :
    colonNames (p.tokens ++ ts) = p.query.mentions ++ colonNames ts := by
  induction p generalizing ts with
  | condition name colon body c hname hcolon hbody =>
    have hbehind := FieldFilter.colonNames_append hbody.kind_ne_colon hts
    rw [tokens, List.cons_append, List.cons_append, colonNames, if_pos ⟨hname, hcolon⟩,
      colonNames_cons_of_ne (by simp [hcolon]), hbehind]
    rfl
  | negation sign operand hsign ih =>
    rw [tokens, List.cons_append, colonNames_cons_of_ne (by simp [hsign]), ih hts]
    rfl
  | group opening inner closing hopening hclosing ih =>
    have hclose : ∀ u ∈ (closing :: ts).head?, u.kind ≠ .colon := by
      rintro _ ⟨⟩
      simp [hclosing]
    rw [tokens, List.cons_append, colonNames_cons_of_ne (by simp [hopening]), List.append_assoc,
      List.singleton_append, ih hclose, colonNames_cons_of_ne (by simp [hclosing])]
    rfl
  | single c operand ih => exact ih hts
  | joined c left sign right hsign ihl ihr =>
    have hmiddle : ∀ u ∈ (sign :: (right.tokens ++ ts)).head?, u.kind ≠ .colon := by
      rintro _ ⟨⟩
      simp [hsign]
    rw [tokens, List.append_assoc, List.cons_append, ihl hmiddle,
      colonNames_cons_of_ne (by simp [hsign]), ihr hts, query, Query.mentions_join,
      List.append_assoc]

/-- A phrase has one colon for each condition. -/
theorem countP_colon (p : Phrase l) :
    p.tokens.countP (·.kind = .colon) = p.query.leafCount := by
  induction p with
  | condition name colon body c hname hcolon hbody =>
    have hnone : body.countP (·.kind = .colon) = 0 := by
      rw [List.countP_eq_zero]
      intro t ht
      simpa using hbody.kind_ne_colon t ht
    simp [tokens, hname, hcolon, hnone, query, Query.leafCount]
  | negation sign operand hsign ih => simpa [tokens, hsign, query, Query.leafCount] using ih
  | group opening inner closing hopening hclosing ih =>
    simpa [tokens, hopening, hclosing, query] using ih
  | single c operand ih => exact ih
  | joined c left sign right hsign ihl ihr => simp [tokens, hsign, ihl, ihr, query, Query.leafCount]

end Phrase

namespace Query

/-- The conditions of a query stand in its text one behind each colon, in the same order. -/
theorem colons_of_parse {maxDepth : Nat} {text : String} {q : Query}
    (h : parse maxDepth text = .ok q) :
    (tokenize text).countP (·.kind = .colon) = q.leafCount ∧
      colonNames (tokenize text) = q.mentions := by
  obtain ⟨p, rfl, hbody⟩ := exists_phrase_of_parse h
  have htokens : tokenize text = p.tokens ++ [endAt (0 + utf8Length text.toList)] := by
    rw [tokenize_eq_lex, lex_eq_lexBody_append, hbody]
  have hend : ∀ u ∈ [endAt (0 + utf8Length text.toList)].head?, u.kind ≠ .colon := by
    rintro _ ⟨⟩
    simp [endAt]
  rw [htokens]
  constructor
  · simp [p.countP_colon, endAt]
  · rw [p.colonNames_append hend]
    exact List.append_nil _

/-- The summaries of a query agree. Its fields are the fields of its conditions without repetitions,
in the order of their first occurrences from left to right; they are what the query mentions; and
there is at least one of them, and at most one for each condition. If the query was parsed from a
text, there is one condition for each colon of the text, and the fields are the identifiers directly
in front of the colons, in the order of the text and without repetitions. -/
theorem summaries_agree (q : Query) :
    (q.fields.Nodup ∧ (∀ field, field ∈ q.fields ↔ field ∈ q.leaves.map Prod.fst) ∧
      q.fields.Pairwise fun f g =>
        (q.leaves.map Prod.fst).idxOf f < (q.leaves.map Prod.fst).idxOf g) ∧
    (∀ field, q.references field = true ↔ field ∈ q.fields) ∧
    1 ≤ q.fields.length ∧ q.fields.length ≤ q.leafCount ∧
    ∀ maxDepth text, parse maxDepth text = .ok q →
      q.leafCount = (tokenize text).countP (·.kind = .colon) ∧
      q.fields = (colonNames (tokenize text)).eraseDups := by
  refine ⟨⟨?nodup, ?mem, ?order⟩, ?references, q.length_fields_pos, ?count, ?text⟩
  case nodup =>
    rw [fields_eq]
    exact nodup_eraseDups _
  case mem =>
    intro field
    rw [fields_eq, List.mem_eraseDups]
    rfl
  case order =>
    rw [fields_eq]
    exact pairwise_idxOf_eraseDups _
  case references =>
    intro field
    rw [references_iff, fields_eq, List.mem_eraseDups]
  case count =>
    rw [fields_eq, ← length_mentions]
    exact length_eraseDups_le _
  case text =>
    intro maxDepth text h
    obtain ⟨hcount, hnames⟩ := colons_of_parse h
    exact ⟨hcount.symm, by rw [hnames, fields_eq]⟩

/-- A value that is spelled like a field is none: `status` is mentioned twice, and listed once. -/
theorem summaries_agree_repeated :
    let q : Query := .join .and (.leaf "status" (.equals (.identifier "size")))
      (.not (.join .or (.leaf "title" (.quoted "size:")) (.leaf "status" (.equals (.boolean true)))))
    parse 5 "status:size AND NOT (title:\"size:\" OR status:true)" = .ok q ∧
      q.leafCount = 3 ∧ q.fields = ["status", "title"] ∧
      (tokenize "status:size AND NOT (title:\"size:\" OR status:true)").countP (·.kind = .colon) =
        3 ∧
      (colonNames (tokenize "status:size AND NOT (title:\"size:\" OR status:true)")).eraseDups =
        ["status", "title"] := by
  intro q
  have hparse : parse 5 "status:size AND NOT (title:\"size:\" OR status:true)" = .ok q := by
    decide +kernel
  obtain ⟨hcount, hfields⟩ := (summaries_agree q).2.2.2.2 5 _ hparse
  exact ⟨hparse, rfl, by decide, hcount.symm, hfields.symm.trans (by decide)⟩

end Query

end FieldFilter
