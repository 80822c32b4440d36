import FieldFilter.Resolution
import Mathlib.Data.List.Basic

/-!
# What a schema makes of a query

A condition asks two things of its field: that the field supports the form of the condition, if it
has one, and that it holds values of every kind that the condition mentions. A query is resolved
exactly if all of its conditions are on known fields that grant both. The predicate then mirrors the
query node for node, so that the query can be read off it again; otherwise the first condition that
is not granted is refused, for the first reason that there is.
-/

namespace FieldFilter

/-! ## What conditions ask for -/

/-- The form of a condition that not every field supports. -/
def Condition.form? : Condition → Option ConditionForm
  | equals _ => none
  | within _ => some .range
  | quoted _ => some .pattern
  | compares _ _ => some .ordering

/-- The kinds of the values in a condition, as they are written; quoted text is of kind text. -/
def Condition.kinds : Condition → List Value.Kind
  | equals v => [v.kind]
  | within r => [r.lower.kind, r.upper.kind]
  | quoted _ => [.text]
  | compares _ v => [v.kind]

/-- Whether fields of a style support a form: ranges and orderings go with ordered fields, quoted
patterns with pattern fields. -/
def ComparisonStyle.supports : ComparisonStyle → ConditionForm → Bool
  | range, .range | range, .ordering | textPattern _, .pattern => true
  | _, _ => false

namespace FieldSpec

/-- The field grants all that a condition asks for. -/
structure Grants (s : FieldSpec) (c : Condition) : Prop where
  form : ∀ form ∈ c.form?, s.style.supports form = true
  kinds : ∀ kind ∈ c.kinds, kind = s.kind

/-- The first reason against a condition: its form, or else the first of its kinds that is not the
declared one. -/
inductive Refuses (s : FieldSpec) (c : Condition) : Refusal → Prop
  | form {form : ConditionForm} (hform : c.form? = some form)
      (hsupports : s.style.supports form = false) : Refuses s c (.unsupportedForm s.style form)
  | kind {before after : List Value.Kind} {kind : Value.Kind}
      (hform : ∀ form ∈ c.form?, s.style.supports form = true)
      (hkinds : c.kinds = before ++ kind :: after) (hbefore : ∀ k ∈ before, k = s.kind)
      (hkind : kind ≠ s.kind) : Refuses s c (.kindMismatch s.kind kind)

/-- The test asks what the condition says; a quoted text is matched in the style of the field. -/
inductive Mirrors (s : FieldSpec) : Condition → Test → Prop
  | equals (v : Value) : Mirrors s (.equals v) (.equals v)
  | within (r : Range) : Mirrors s (.within r) (.within r)
  | quoted (text : String) {style : MatchStyle} (hstyle : s.style = .textPattern style) :
      Mirrors s (.quoted text) (.fits ⟨text, style⟩)
  | compares (op : Comparison) (v : Value) : Mirrors s (.compares op v) (.compares op v)

end FieldSpec

namespace Schema

/-- The field of a leaf is known and grants what the condition asks for. -/
def Passes (schema : Schema) (leaf : String × Condition) : Prop :=
  ∃ spec, schema.find? leaf.1 = some spec ∧ spec.Grants leaf.2

/-- The first reason against a leaf. -/
inductive Refuses (schema : Schema) (leaf : String × Condition) : Refusal → Prop
  | unknownField (hfield : schema.find? leaf.1 = none) : Refuses schema leaf .unknownField
  | condition {spec : FieldSpec} {reason : Refusal} (hfield : schema.find? leaf.1 = some spec)
      (hreason : spec.Refuses leaf.2 reason) : Refuses schema leaf reason

/-- The predicate has the nodes of the query, and in the place of each condition a check of the same
field that asks what the condition says. -/
inductive Mirrors (schema : Schema) : Query → Predicate → Prop
  | leaf {field : String} {spec : FieldSpec} {c : Condition} {test : Test}
      (hfield : schema.find? field = some spec) (htest : spec.Mirrors c test) :
      Mirrors schema (.leaf field c) (.check ⟨field, test⟩)
  | join (c : Connective) {left right : Query} {p r : Predicate} (hleft : Mirrors schema left p)
      (hright : Mirrors schema right r) : Mirrors schema (.join c left right) (.join c p r)
  | not {operand : Query} {p : Predicate} (hoperand : Mirrors schema operand p) :
      Mirrors schema (.not operand) (.not p)

end Schema

/-! ## Reading a query off a predicate -/

/-- The condition that a test stands for; the style of a pattern is the schema's affair. -/
def Test.condition : Test → Condition
  | equals v => .equals v
  | within r => .within r
  | fits pattern => .quoted pattern.text
  | compares op v => .compares op v

/-- The query of a predicate without constants. -/
def Predicate.query? : Predicate → Option Query
  | check c => some (.leaf c.field c.test.condition)
  | join c left right => do
    let left ← left.query?
    let right ← right.query?
    some (.join c left right)
  | not operand => operand.query?.map .not
  | always _ => none

/-- A test tells which condition it mirrors. -/
theorem FieldSpec.Mirrors.condition_eq {s : FieldSpec} {c : Condition} {test : Test}
    (h : s.Mirrors c test) : test.condition = c := by
  cases h <;> rfl

/-- A predicate tells which query it mirrors. -/
theorem Schema.Mirrors.query?_eq {schema : Schema} {q : Query} {p : Predicate}
    (h : schema.Mirrors q p) : p.query? = some q := by
  induction h with
  | leaf hfield htest => rw [Predicate.query?, htest.condition_eq]
  | join c hleft hright ihl ihr => simp [Predicate.query?, ihl, ihr]
  | not hoperand ih => rw [Predicate.query?, ih, Option.map_some]

/-! ## One condition -/

/-- The first element without a property is the same in every division of a list at it. -/
theorem eq_of_append_cons_eq {α : Type} {P : α → Prop} {as as' bs bs' : List α} {a a' : α}
    (h : as ++ a :: bs = as' ++ a' :: bs') (has : ∀ x ∈ as, P x) (ha : ¬P a)
    (has' : ∀ x ∈ as', P x) (ha' : ¬P a') : a = a' := by
  induction as generalizing as' with
  | nil =>
    cases as' with
    | nil => exact (List.cons.inj h).1
    | cons b as' =>
      obtain rfl : a = b := (List.cons.inj h).1
      exact absurd (has' a List.mem_cons_self) ha
  | cons b as ih =>
    cases as' with
    | nil =>
      obtain rfl : b = a' := (List.cons.inj h).1
      exact absurd (has b List.mem_cons_self) ha'
    | cons b' as' =>
      exact ih (List.cons.inj h).2 (fun x hx => has x (List.mem_cons_of_mem _ hx))
        fun x hx => has' x (List.mem_cons_of_mem _ hx)

namespace FieldSpec

variable {s : FieldSpec} {c : Condition}

/-- A field that refuses a condition does not grant it. -/
theorem Refuses.not_grants {reason : Refusal} (h : s.Refuses c reason) : ¬s.Grants c := by
  intro hgrants
  cases h with
  | form hform hsupports =>
    rw [hgrants.form _ hform] at hsupports
    cases hsupports
  | kind hform hkinds hbefore hkind => exact hkind (hgrants.kinds _ (by simp [hkinds]))

/-- There is one first reason. -/
theorem Refuses.unique {reason reason' : Refusal} (h : s.Refuses c reason)
    (h' : s.Refuses c reason') : reason = reason' := by
  cases h with
  | form hform hsupports =>
    cases h' with
    | form hform' hsupports' =>
      rw [hform] at hform'
      cases hform'
      rfl
    | kind hform' =>
      rw [hform' _ hform] at hsupports
      cases hsupports
  | kind hform hkinds hbefore hkind =>
    cases h' with
    | form hform' hsupports' =>
      rw [hform _ hform'] at hsupports'
      cases hsupports'
    | kind hform' hkinds' hbefore' hkind' =>
      rw [hkinds] at hkinds'
      rw [eq_of_append_cons_eq hkinds' hbefore hkind hbefore' hkind']

/-- A supported condition whose first kind is not the declared one is refused for it. -/
theorem refuses_head {kind : Value.Kind} {after : List Value.Kind}
    (hform : ∀ form ∈ c.form?, s.style.supports form = true) (hkinds : c.kinds = kind :: after)
    (hkind : kind ≠ s.kind) : s.Refuses c (.kindMismatch s.kind kind) := by
  rw [← List.nil_append (kind :: after)] at hkinds
  exact .kind hform hkinds (by simp) hkind

/-- What is to be said of a condition and what becomes of it. -/
def Settles (s : FieldSpec) (c : Condition) : Except Refusal Test → Prop
  | .ok test => s.Grants c ∧ s.Mirrors c test
  | .error reason => s.Refuses c reason

/-- Ranges go with the fields that support them. -/
theorem supports_range (s : FieldSpec) : s.style.supports .range = s.supportsRange := by
  unfold supportsRange
  cases s.style <;> rfl

/-- Orderings go with the fields that support ranges. -/
theorem supports_ordering (s : FieldSpec) : s.style.supports .ordering = s.supportsRange := by
  unfold supportsRange
  cases s.style <;> rfl

/-- Quoted patterns go with the fields that have a match style. -/
theorem supports_pattern (s : FieldSpec) :
    s.style.supports .pattern = s.matchStyle?.isSome := by
  unfold matchStyle?
  cases s.style <;> rfl

/-- Only a pattern field has a match style. -/
theorem style_of_matchStyle? {style : MatchStyle} (h : s.matchStyle? = some style) :
    s.style = .textPattern style := by
  unfold matchStyle? at h
  split at h
  · rename_i hstyle
    cases h
    exact hstyle
  · cases h

/-- A field resolves the conditions that it grants, and refuses the others for the first reason. -/
theorem settles_resolve (s : FieldSpec) (c : Condition) : s.Settles c (s.resolve c) := by
  cases c with
  | equals v =>
    by_cases hkind : v.kind = s.kind
    · simp only [resolve, checkKind, if_pos hkind]
      exact ⟨⟨by simp [Condition.form?], by simp [Condition.kinds, hkind]⟩, .equals v⟩
    · simp only [resolve, checkKind, if_neg hkind]
      exact refuses_head (by simp [Condition.form?]) rfl hkind
  | within r =>
    have hsupports := s.supports_range
    cases hrange : s.supportsRange with
    | false =>
      simp only [resolve, checkRange, hrange]
      exact .form rfl (hsupports.trans hrange)
    | true =>
      have hform : ∀ form ∈ (Condition.within r).form?, s.style.supports form = true := by
        rintro form ⟨⟩
        exact hsupports.trans hrange
      simp only [resolve, checkRange, hrange, checkKind]
      by_cases hlower : r.lower.kind = s.kind
      · simp only [if_pos hlower]
        by_cases hupper : r.upper.kind = s.kind
        · simp only [if_pos hupper]
          exact ⟨⟨hform, by simp [Condition.kinds, hlower, hupper]⟩, .within r⟩
        · have hkinds : (Condition.within r).kinds = [r.lower.kind] ++ r.upper.kind :: [] := rfl
          simp only [if_neg hupper]
          exact .kind hform hkinds (by simpa using hlower) hupper
      · simp only [if_neg hlower]
        exact refuses_head hform rfl hlower
  | quoted text =>
    have hsupports := s.supports_pattern
    cases hstyle : s.matchStyle? with
    | none =>
      rw [hstyle] at hsupports
      simp only [resolve, hstyle]
      exact .form rfl hsupports
    | some style =>
      have hform : ∀ form ∈ (Condition.quoted text).form?, s.style.supports form = true := by
        rintro form ⟨⟩
        rw [hsupports, hstyle]
        rfl
      simp only [resolve, hstyle]
      by_cases hkind : s.kind = .text
      · simp only [if_pos hkind]
        refine ⟨⟨hform, ?_⟩, .quoted text (style_of_matchStyle? hstyle)⟩
        simp [Condition.kinds, hkind]
      · simp only [if_neg hkind]
        exact refuses_head hform rfl (Ne.symm hkind)
  | compares op v =>
    have hsupports := s.supports_ordering
    cases hrange : s.supportsRange with
    | false =>
      simp only [resolve, checkRange, hrange]
      exact .form rfl (hsupports.trans hrange)
    | true =>
      have hform : ∀ form ∈ (Condition.compares op v).form?, s.style.supports form = true := by
        rintro form ⟨⟩
        exact hsupports.trans hrange
      simp only [resolve, checkRange, hrange, checkKind]
      by_cases hkind : v.kind = s.kind
      · simp only [if_pos hkind]
        exact ⟨⟨hform, by simp [Condition.kinds, hkind]⟩, .compares op v⟩
      · simp only [if_neg hkind]
        exact refuses_head hform rfl hkind

end FieldSpec

/-! ## Whole queries -/

namespace Schema

variable {schema : Schema}

/-- A leaf that is refused does not pass. -/
theorem Refuses.not_passes {leaf : String × Condition} {reason : Refusal}
    (h : schema.Refuses leaf reason) : ¬schema.Passes leaf := by
  rintro ⟨spec, hfield, hgrants⟩
  cases h with
  | unknownField hnone =>
    rw [hnone] at hfield
    cases hfield
  | condition hfield' hreason =>
    obtain rfl := Option.some.inj (hfield.symm.trans hfield')
    exact hreason.not_grants hgrants

/-- There is one first reason. -/
theorem Refuses.unique {leaf : String × Condition} {reason reason' : Refusal}
    (h : schema.Refuses leaf reason) (h' : schema.Refuses leaf reason') : reason = reason' := by
  cases h with
  | unknownField hnone =>
    cases h' with
    | unknownField => rfl
    | condition hfield =>
      rw [hnone] at hfield
      cases hfield
  | condition hfield hreason =>
    cases h' with
    | unknownField hnone =>
      rw [hnone] at hfield
      cases hfield
    | condition hfield' hreason' =>
      obtain rfl := Option.some.inj (hfield.symm.trans hfield')
      exact hreason.unique hreason'

/-- The error tells of the first leaf that does not pass, and of the first reason against it. -/
def FirstRefusal (schema : Schema) (leaves : List (String × Condition)) (e : ValidationError) :
    Prop :=
  ∃ before leaf after, leaves = before ++ leaf :: after ∧ (∀ l ∈ before, schema.Passes l) ∧
    ¬schema.Passes leaf ∧ schema.Refuses leaf e.reason ∧ e.field = leaf.1

/-- Leaves that come later do not matter. -/
theorem FirstRefusal.append {leaves : List (String × Condition)} {e : ValidationError}
    (h : schema.FirstRefusal leaves e) (more : List (String × Condition)) :
    schema.FirstRefusal (leaves ++ more) e := by
  obtain ⟨before, leaf, after, rfl, h⟩ := h
  exact ⟨before, leaf, after ++ more, by simp, h⟩

/-- Leaves that pass do not matter. -/
theorem FirstRefusal.prepend {leaves passed : List (String × Condition)} {e : ValidationError}
    (hpassed : ∀ l ∈ passed, schema.Passes l) (h : schema.FirstRefusal leaves e) :
    schema.FirstRefusal (passed ++ leaves) e := by
  obtain ⟨before, leaf, after, rfl, hbefore, h⟩ := h
  refine ⟨passed ++ before, leaf, after, by simp, ?_, h⟩
  intro l hl
  rcases List.mem_append.1 hl with hl | hl
  · exact hpassed l hl
  · exact hbefore l hl

/-- There is one first refusal. -/
theorem FirstRefusal.unique {leaves : List (String × Condition)} {e e' : ValidationError}
    (h : schema.FirstRefusal leaves e) (h' : schema.FirstRefusal leaves e') : e = e' := by
  obtain ⟨before, leaf, after, rfl, hbefore, hleaf, hreason, hfield⟩ := h
  obtain ⟨before', leaf', after', heq, hbefore', hleaf', hreason', hfield'⟩ := h'
  obtain rfl := eq_of_append_cons_eq heq hbefore hleaf hbefore' hleaf'
  cases e
  cases e'
  simp only at hfield hfield' hreason hreason'
  rw [hfield, hfield', hreason.unique hreason']

/-- What is to be said of a query and what becomes of it. -/
def Settles (schema : Schema) (q : Query) : Except ValidationError Predicate → Prop
  | .ok p => (∀ leaf ∈ q.leaves, schema.Passes leaf) ∧ schema.Mirrors q p
  | .error e => schema.FirstRefusal q.leaves e

/-- A leaf is resolved to a check that mirrors it, or refused for its first reason. -/
theorem settles_resolveLeaf (field : String) (c : Condition) :
    schema.Settles (.leaf field c)
      ((schema.resolveLeaf field c).map Predicate.check) := by
  unfold resolveLeaf
  cases hfield : schema.find? field with
  | none =>
    have hrefused : schema.Refuses (field, c) .unknownField := .unknownField hfield
    exact ⟨[], (field, c), [], rfl, by simp, hrefused.not_passes, hrefused, rfl⟩
  | some spec =>
    have hsettles := spec.settles_resolve c
    cases hresolve : spec.resolve c with
    | ok test =>
      rw [hresolve] at hsettles
      simp only [hresolve]
      refine ⟨?_, .leaf hfield hsettles.2⟩
      intro leaf hleaf
      obtain rfl := List.mem_singleton.1 hleaf
      exact ⟨spec, hfield, hsettles.1⟩
    | error reason =>
      rw [hresolve] at hsettles
      simp only [hresolve]
      have hrefused : schema.Refuses (field, c) reason := .condition hfield hsettles
      exact ⟨[], (field, c), [], rfl, by simp, hrefused.not_passes, hrefused, rfl⟩

/-- A schema resolves the queries whose leaves all pass, to predicates that mirror them, and refuses
the others for the first leaf that does not. -/
theorem settles_resolve (schema : Schema) (q : Query) : schema.Settles q (schema.resolve q) := by
  induction q with
  | leaf field c =>
    have hleaf : schema.Settles (.leaf field c) ((schema.resolveLeaf field c).map .check) :=
      settles_resolveLeaf field c
    cases hresolve : schema.resolveLeaf field c with
    | ok check =>
      rw [hresolve] at hleaf
      simp only [resolve, hresolve]
      exact hleaf
    | error e =>
      rw [hresolve] at hleaf
      simp only [resolve, hresolve]
      exact hleaf
  | join c left right ihl ihr =>
    cases hleft : schema.resolve left with
    | error e =>
      rw [hleft] at ihl
      simp only [resolve, hleft]
      exact FirstRefusal.append ihl right.leaves
    | ok p =>
      rw [hleft] at ihl
      cases hright : schema.resolve right with
      | error e =>
        rw [hright] at ihr
        simp only [resolve, hleft, hright]
        exact FirstRefusal.prepend ihl.1 ihr
      | ok r =>
        rw [hright] at ihr
        simp only [resolve, hleft, hright]
        refine ⟨?_, .join c ihl.2 ihr.2⟩
        intro leaf hleaf
        rcases List.mem_append.1 hleaf with hleaf | hleaf
        · exact ihl.1 leaf hleaf
        · exact ihr.1 leaf hleaf
  | not operand ih =>
    cases hoperand : schema.resolve operand with
    | error e =>
      rw [hoperand] at ih
      simp only [resolve, hoperand]
      exact ih
    | ok p =>
      rw [hoperand] at ih
      simp only [resolve, hoperand]
      exact ⟨ih.1, .not ih.2⟩

/-- In a query that is resolved, all leaves pass. -/
theorem passes_of_resolve {q : Query} {p : Predicate} (h : schema.resolve q = .ok p) :
    ∀ leaf ∈ q.leaves, schema.Passes leaf := by
  have hsettles := schema.settles_resolve q
  rw [h] at hsettles
  exact hsettles.1

/-- A predicate mirrors the query of which it is made. -/
theorem mirrors_of_resolve {q : Query} {p : Predicate} (h : schema.resolve q = .ok p) :
    schema.Mirrors q p := by
  have hsettles := schema.settles_resolve q
  rw [h] at hsettles
  exact hsettles.2

/-- The error of a query is the first refusal among its leaves. -/
theorem firstRefusal_of_resolve {q : Query} {e : ValidationError}
    (h : schema.resolve q = .error e) : schema.FirstRefusal q.leaves e := by
  have hsettles := schema.settles_resolve q
  rw [h] at hsettles
  exact hsettles

/-- A query is resolved exactly if all its leaves pass. What it is resolved to mirrors it, and tells
which query it was. Otherwise the error is that of the first leaf that does not pass, which is the
first reason against this leaf. -/
theorem resolve_eq_ok_iff_passes (schema : Schema) (q : Query) :
    ((∃ p, schema.resolve q = .ok p) ↔ ∀ leaf ∈ q.leaves, schema.Passes leaf) ∧
    (∀ p, schema.resolve q = .ok p → schema.Mirrors q p ∧ p.query? = some q) ∧
    ∀ e, schema.resolve q = .error e ↔ schema.FirstRefusal q.leaves e := by
  -- A first refusal speaks of a leaf that does not pass.
  have hrefused {e : ValidationError} (h : schema.FirstRefusal q.leaves e) :
      ¬∀ leaf ∈ q.leaves, schema.Passes leaf := by
    obtain ⟨before, leaf, after, hleaves, _, hleaf, _⟩ := h
    exact fun hpasses => hleaf (hpasses leaf (by simp [hleaves]))
  refine ⟨⟨?_, ?_⟩, ?_, fun e => ⟨firstRefusal_of_resolve, ?_⟩⟩
  · rintro ⟨p, hp⟩
    exact passes_of_resolve hp
  · intro hpasses
    cases hresolve : schema.resolve q with
    | ok p => exact ⟨p, rfl⟩
    | error e => exact absurd hpasses (hrefused (firstRefusal_of_resolve hresolve))
  · intro p hp
    have hmirrors := mirrors_of_resolve hp
    exact ⟨hmirrors, hmirrors.query?_eq⟩
  · intro h
    cases hresolve : schema.resolve q with
    | ok p => exact absurd (passes_of_resolve hresolve) (hrefused h)
    | error e' => rw [(firstRefusal_of_resolve hresolve).unique h]

/-- The form of a condition counts before its kinds, and an earlier leaf before a later one. -/
example : resolve (FieldMap.empty.insert "a" ⟨.text, .equality⟩)
    (.join .and (.leaf "a" (.within ⟨.boolean true, .boolean true⟩)) (.leaf "b" (.quoted "x"))) =
      .error ⟨"a", .unsupportedForm .equality .range⟩ := rfl

end Schema

end FieldFilter
