import FieldFilter.Proofs.Compilation.Outcome
import FieldFilter.Proofs.Query.Spellable
import FieldFilter.Proofs.Schema.Resolution

/-!
# What a host may rely on

A blank text is compiled to the constant that accepts everything. The predicate of any other text
has no constants and is no taller than the depth limit. Each of its checks is of a field of the
schema, in a form that the field supports, with literals of the declared kind. The lexer answers for
the form of names and texts, the parser for their places and the height, the schema for the rest.
-/

namespace FieldFilter

/-! ## Guarantees -/

/-- A letter or an underscore, then letters, digits and underscores, all of them ASCII, that are
together no keyword and no truth value. -/
structure IsIdentifier (s : String) : Prop where
  form : ∃ c cs, s.toList = c :: cs ∧ (c.isAlpha = true ∨ c = '_') ∧
    ∀ d ∈ cs, d.isAlphanum = true ∨ d = '_'
  notReserved : s ∉ ["OR", "AND", "NOT", "true", "false"]

/-- The value is a bare word, a number without a sign or a truth value, but no quoted text. -/
def Value.IsLiteral : Value → Prop
  | identifier s => IsIdentifier s
  | number d => d.negative = false
  | boolean _ => True
  | quoted _ => False

namespace FieldSpec

/-- The value is a literal of the declared kind. -/
structure Admits (s : FieldSpec) (v : Value) : Prop where
  kind : v.kind = s.kind
  literal : v.IsLiteral

/-- The test is of a form that the field supports, all its values are admitted, and its pattern is
matched in the style that the field declares. -/
def Vouches (s : FieldSpec) : Test → Prop
  | .equals v => s.Admits v
  | .within r => s.style = .range ∧ s.Admits r.lower ∧ s.Admits r.upper
  | .fits pattern =>
    s.kind = .text ∧ s.style = .textPattern pattern.style ∧ '"' ∉ pattern.text.toList
  | .compares _ v => s.style = .range ∧ s.Admits v

end FieldSpec

/-- The check is of a field of the schema, which vouches for it. -/
structure Schema.Vouches (schema : Schema) (c : Check) : Prop where
  name : IsIdentifier c.field
  field : ∃ spec, schema.find? c.field = some spec ∧ spec.Vouches c.test

namespace Predicate

/-- Whether no part of the predicate is a constant. -/
def isConstantFree : Predicate → Bool
  | check _ => true
  | join _ left right => left.isConstantFree && right.isConstantFree
  | not operand => operand.isConstantFree
  | always _ => false

/-- The longest way from the root to a check or a constant, which has height zero. -/
def height : Predicate → Nat
  | check _ | always _ => 0
  | join _ left right => max left.height right.height + 1
  | not operand => operand.height + 1

/-- What a host may rely on in a predicate. -/
structure Reliable (p : Predicate) (schema : Schema) (limit : Nat) : Prop where
  constantFree : p.isConstantFree = true
  height_le : p.height ≤ limit
  vouched : ∀ c ∈ p.checks, schema.Vouches c

end Predicate

/-! ## From spellable to literal -/

/-- A name is an identifier as a predicate has it. -/
theorem isIdentifier_of_isName {s : String} (h : isName s = true) : IsIdentifier s := by
  unfold isName at h
  split at h
  · cases h
  · rename_i c cs hcons
    simp only [Bool.and_eq_true, Bool.not_eq_true', List.contains_eq_mem,
      decide_eq_false_iff_not, List.all_eq_true] at h
    obtain ⟨⟨hc, hcs⟩, hreserved⟩ := h
    refine ⟨⟨c, cs, hcons, ?_, fun d hd => ?_⟩, hreserved⟩
    · simpa [Token.isWordStart] using hc
    · simpa [Token.isWordPart] using hcs d hd

/-- A value that can be spelled is a literal. -/
theorem Value.isLiteral_of_isSpellable {v : Value} (h : v.isSpellable = true) : v.IsLiteral := by
  cases v with
  | identifier s => exact isIdentifier_of_isName h
  | number d => simpa [isSpellable, IsLiteral] using h
  | boolean b => trivial
  | quoted s => cases h

/-- In a query that can be spelled, every condition can. -/
theorem Query.isSpellable_of_mem_leaves {q : Query} (h : q.isSpellable = true) :
    ∀ leaf ∈ q.leaves, isName leaf.1 = true ∧ leaf.2.isSpellable = true := by
  induction q with
  | leaf field c =>
    rw [isSpellable, Bool.and_eq_true] at h
    simpa [leaves] using h
  | join c left right ihl ihr =>
    rw [isSpellable, Bool.and_eq_true] at h
    intro leaf hleaf
    rcases List.mem_append.1 hleaf with hleaf | hleaf
    · exact ihl h.1 leaf hleaf
    · exact ihr h.2 leaf hleaf
  | not operand ih => exact ih h

/-! ## From a query to its predicate -/

/-- Only ordered fields support ranges and orderings. -/
theorem ComparisonStyle.eq_range_of_supports {style : ComparisonStyle} {form : ConditionForm}
    (h : style.supports form = true) (hform : form ≠ .pattern) : style = .range := by
  cases form with
  | pattern => exact absurd rfl hform
  | range | ordering =>
    cases style with
    | range => rfl
    | equality | textPattern => cases h

/-- A field that grants a spellable condition vouches for the test that mirrors it. -/
theorem FieldSpec.Grants.vouches {s : FieldSpec} {c : Condition} {test : Test} (h : s.Grants c)
    (hc : c.isSpellable = true) (htest : s.Mirrors c test) : s.Vouches test := by
  cases htest with
  | equals v => exact ⟨h.kinds _ (by simp [Condition.kinds]), Value.isLiteral_of_isSpellable hc⟩
  | within r =>
    have hstyle := ComparisonStyle.eq_range_of_supports (h.form .range rfl) (by simp)
    rw [Condition.isSpellable, Bool.and_eq_true] at hc
    refine ⟨hstyle, ⟨?_, Value.isLiteral_of_isSpellable hc.1⟩,
      ⟨?_, Value.isLiteral_of_isSpellable hc.2⟩⟩
    · exact h.kinds _ (by simp [Condition.kinds])
    · exact h.kinds _ (by simp [Condition.kinds])
  | quoted text hstyle =>
    refine ⟨(h.kinds .text (by simp [Condition.kinds])).symm, hstyle, ?_⟩
    simpa [Condition.isSpellable] using hc
  | compares op v =>
    have hstyle := ComparisonStyle.eq_range_of_supports (h.form .ordering rfl) (by simp)
    exact ⟨hstyle, h.kinds _ (by simp [Condition.kinds]), Value.isLiteral_of_isSpellable hc⟩

namespace Schema.Mirrors

variable {schema : Schema} {q : Query} {p : Predicate}

/-- A predicate that mirrors a query has no constants. -/
theorem isConstantFree (h : schema.Mirrors q p) : p.isConstantFree = true := by
  induction h with
  | leaf => rfl
  | join c _ _ ihl ihr => rw [Predicate.isConstantFree, ihl, ihr, Bool.and_self]
  | not _ ih => exact ih

/-- A predicate that mirrors a query is as tall. -/
theorem height_eq (h : schema.Mirrors q p) : p.height = q.height := by
  induction h with
  | leaf => rfl
  | join c _ _ ihl ihr => rw [Predicate.height, Query.height, ihl, ihr]
  | not _ ih => rw [Predicate.height, Query.height, ih]

/-- Every check mirrors a condition of the query on the same field. -/
theorem exists_leaf (h : schema.Mirrors q p) :
    ∀ check ∈ p.checks, ∃ c spec, (check.field, c) ∈ q.leaves ∧
      schema.find? check.field = some spec ∧ spec.Mirrors c check.test := by
  induction h with
  | @leaf field spec c test hfield htest =>
    intro check hcheck
    obtain rfl := List.mem_singleton.1 hcheck
    exact ⟨c, spec, List.mem_singleton_self _, hfield, htest⟩
  | join c _ _ ihl ihr =>
    intro check hcheck
    rcases List.mem_append.1 hcheck with hcheck | hcheck
    · obtain ⟨c, spec, hleaf, h⟩ := ihl check hcheck
      exact ⟨c, spec, List.mem_append_left _ hleaf, h⟩
    · obtain ⟨c, spec, hleaf, h⟩ := ihr check hcheck
      exact ⟨c, spec, List.mem_append_right _ hleaf, h⟩
  | not _ ih => exact ih

end Schema.Mirrors

/-- The schema vouches for every check of a spellable query that it resolves. -/
theorem vouches_of_resolve {schema : Schema} {q : Query} {p : Predicate}
    (hq : q.isSpellable = true) (h : schema.resolve q = .ok p) :
    ∀ check ∈ p.checks, schema.Vouches check := by
  intro check hcheck
  obtain ⟨c, spec, hleaf, hfield, htest⟩ := (Schema.mirrors_of_resolve h).exists_leaf check hcheck
  obtain ⟨hname, hc⟩ := Query.isSpellable_of_mem_leaves hq _ hleaf
  obtain ⟨spec', hfield', hgrants⟩ := Schema.passes_of_resolve h _ hleaf
  obtain rfl := Option.some.inj (hfield.symm.trans hfield')
  exact ⟨isIdentifier_of_isName hname, spec, hfield, hgrants.vouches hc htest⟩

/-! ## Compiled predicates -/

/-- A text that is compiled is either blank, and accepts everything under all limits and schemas,
or it has a predicate on which a host may rely. -/
theorem reliable_of_compile {limits : Limits} {schema : Schema} {text : String} {p : Predicate}
    (h : compile limits schema text = .ok p) :
    (isBlank text = true ∧ p = .always true ∧
      ∀ limits' schema', compile limits' schema' text = .ok (.always true)) ∨
    (isBlank text = false ∧ p.Reliable schema (min limits.maxDepth 256)) := by
  cases hblank : isBlank text with
  | true =>
    left
    rw [compile_of_isBlank hblank] at h
    cases h
    exact ⟨rfl, rfl, compile_of_isBlank hblank⟩
  | false =>
    right
    obtain ⟨_, q, hparse, hresolve⟩ := (compile_eq_ok_iff hblank).1 h
    obtain ⟨depths, hspells⟩ := spells_of_parse hparse
    have hmirrors := Schema.mirrors_of_resolve hresolve
    refine ⟨rfl, hmirrors.isConstantFree, ?_, ?_⟩
    · rw [hmirrors.height_eq]
      exact (bounds_of_parse hparse hspells).1
    · exact vouches_of_resolve (isSpellable_of_parse hparse) hresolve

/-- The schema with a text field that is matched by pattern and an ordered number field. -/
def patternSchema : Schema :=
  (FieldMap.empty.insert "name" ⟨.text, .textPattern .contains⟩).insert "size" ⟨.number, .range⟩

/-- The predicate of `NOT name:"a b" OR size:3..4.125`. -/
def patternOrRange : Predicate :=
  .join .or (.not (.check ⟨"name", .fits ⟨"a b", .contains⟩⟩))
    (.check ⟨"size", .within ⟨.number ⟨false, 3, 0, by decide, by decide⟩,
      .number ⟨false, 4125, 3, by decide, by decide⟩⟩⟩)

/-- A blank text takes the one way and a query the other. -/
theorem reliable_patternOrRange :
    compile ⟨0, 0⟩ patternSchema "\t " = .ok (.always true) ∧
    (∀ limits' schema', compile limits' schema' "\t " = .ok (.always true)) ∧
    compile .default patternSchema "NOT name:\"a b\" OR size:3..4.125" = .ok patternOrRange ∧
    patternOrRange.Reliable patternSchema 128 := by
  have hblank : compile ⟨0, 0⟩ patternSchema "\t " = .ok (.always true) := by decide +kernel
  have h : compile .default patternSchema "NOT name:\"a b\" OR size:3..4.125" =
      .ok patternOrRange := by decide +kernel
  have hall := (reliable_of_compile hblank).resolve_right fun hquery =>
    absurd hquery.1 (by decide)
  have hreliable := (reliable_of_compile h).resolve_left fun hconstant =>
    absurd hconstant.1 (by decide)
  exact ⟨hblank, hall.2.2, h, hreliable.2⟩

end FieldFilter
