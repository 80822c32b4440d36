import FieldFilter.Proofs.Value.Order
import FieldFilter.Record

/-!
# Comparing what a record holds

A value that a record holds is compared with a literal in five ways, by equality and by the four
comparisons. They all look at one outcome, that of ordering the stored value against the literal. So
they depend on each other as the outcomes do, and none of them holds where there is no outcome:
where the field is missing or holds a value of another kind. A range is the pair of its two
comparisons.
-/

namespace FieldFilter

/-! ## One stored value -/

namespace Test

variable {v actual : Value} {o : Ordering}

/-- The five ways to compare with a value. -/
def comparing (v : Value) : List Test := .equals v :: Comparison.all.map (.compares · v)

/-- The three of them that exclude each other. -/
def alternatives (v : Value) : List Test := [.compares .below v, .equals v, .compares .above v]

theorem holds_compares (h : actual.compare? v = some o) (op : Comparison) :
    (compares op v).holds actual = op.accepts o := by
  rw [holds, h, Option.any_some]

theorem holds_equals (h : actual.compare? v = some o) :
    (equals v).holds actual = (o == .eq) := by
  rw [holds, Value.sameAs, h]
  cases o <;> rfl

/-- A comparable value passes exactly one of the alternatives. -/
theorem existsUnique_alternatives (h : actual.compare? v = some o) :
    ∃! t, t ∈ alternatives v ∧ t.holds actual = true := by
  cases o with
  | lt =>
    refine ⟨.compares .below v, by simp [alternatives, holds_compares h, Comparison.accepts], ?_⟩
    simp [alternatives, holds_compares h, holds_equals h, Comparison.accepts]
  | eq =>
    refine ⟨.equals v, by simp [alternatives, holds_equals h], ?_⟩
    simp [alternatives, holds_compares h, Comparison.accepts]
  | gt =>
    refine ⟨.compares .above v, by simp [alternatives, holds_compares h, Comparison.accepts], ?_⟩
    simp [alternatives, holds_compares h, holds_equals h, Comparison.accepts]

/-- To be at least a value is to be above it or the same. -/
theorem holds_atLeast (h : actual.compare? v = some o) :
    (compares .atLeast v).holds actual =
      ((compares .above v).holds actual || (equals v).holds actual) := by
  rw [holds_compares h, holds_compares h, holds_equals h]
  cases o <;> rfl

/-- To be at most a value is to be below it or the same. -/
theorem holds_atMost (h : actual.compare? v = some o) :
    (compares .atMost v).holds actual =
      ((compares .below v).holds actual || (equals v).holds actual) := by
  rw [holds_compares h, holds_compares h, holds_equals h]
  cases o <;> rfl

/-- A value of another kind passes none of the five. -/
theorem holds_eq_false_of_kind_ne (h : actual.kind ≠ v.kind) {t : Test} (ht : t ∈ comparing v) :
    t.holds actual = false := by
  have hnone : actual.compare? v = none := Value.compare?_eq_none_iff.2 h
  rcases List.mem_cons.1 ht with rfl | ht
  · rw [holds, Value.sameAs, hnone]
    rfl
  · obtain ⟨op, _, rfl⟩ := List.mem_map.1 ht
    rw [holds, hnone, Option.any_none]

/-- To lie within a range is to be at least its lower bound and at most its upper one. The range
orders its lower bound against the value, and the comparison the value against the bound. -/
theorem holds_within (r : Range) (actual : Value) :
    (within r).holds actual =
      ((compares .atLeast r.lower).holds actual && (compares .atMost r.upper).holds actual) := by
  have hswap : (fun o : Ordering => o.swap != .gt) = Comparison.atLeast.accepts := by
    funext o
    cases o <;> rfl
  have hlower : (r.lower.compare? actual).any (· != .gt) =
      (actual.compare? r.lower).any Comparison.atLeast.accepts := by
    rw [Value.compare?_swap actual r.lower, Option.any_map, ← hswap]
  rw [holds, Range.contains, hlower]
  rfl

end Test

/-! ## Records -/

namespace Record

variable {r : Record} {field : String} {v actual : Value}

theorem answer_of_find? (h : r.find? field = some actual) (t : Test) :
    r.answer ⟨field, t⟩ = t.holds actual := by
  rw [answer, h, Option.any_some]

/-- A record that holds nothing comparable with a value under a field passes no comparison with
it. -/
theorem answer_eq_false (h : ∀ actual, r.find? field = some actual → actual.kind ≠ v.kind)
    {t : Test} (ht : t ∈ Test.comparing v) : r.answer ⟨field, t⟩ = false := by
  cases hfind : r.find? field with
  | none => rw [answer, hfind, Option.any_none]
  | some actual =>
    rw [answer_of_find? hfind]
    exact Test.holds_eq_false_of_kind_ne (h actual hfind) ht

/-- A record answers a range as it answers its two comparisons. -/
theorem answer_within (r : Record) (field : String) (range : Range) :
    r.answer ⟨field, .within range⟩ =
      (r.answer ⟨field, .compares .atLeast range.lower⟩ &&
        r.answer ⟨field, .compares .atMost range.upper⟩) := by
  cases hfind : r.find? field with
  | none => simp [answer, hfind]
  | some actual =>
    rw [answer_of_find? hfind, answer_of_find? hfind, answer_of_find? hfind]
    exact Test.holds_within range actual

end Record

/-! ## The order as records see it -/

/-- Values are comparable exactly if they are of one kind. On each kind the order is total, and
turning it round turns the outcome round; comparisons that do not go down compose. Being the same is
an equivalence that is coarser than equality as written. A range contains something exactly if its
bounds are in order. A record that holds a value of the kind of a literal passes exactly one of the
tests for below, the same and above, and it passes the other two comparisons as these three say; a
record that does not passes none of the five. Numbers are ordered by the rational numbers that they
denote. -/
theorem values_preordered_within_kinds :
    (∀ a b : Value, a.compare? b = none ↔ a.kind ≠ b.kind) ∧
    (∀ a : Value, a.compare? a = some .eq) ∧
    (∀ a b : Value, b.compare? a = (a.compare? b).map Ordering.swap) ∧
    (∀ (a b c : Value) (o o' : Ordering), a.compare? b = some o → b.compare? c = some o' →
      o ≠ .gt → o' ≠ .gt → a.compare? c = some (o.then o')) ∧
    Equivalence (fun a b : Value => a.sameAs b = true) ∧
    (∀ a b : Value, a.alike b = true → a.sameAs b = true) ∧
    (∃ a b : Value, a.sameAs b = true ∧ a.alike b = false) ∧
    (∀ range : Range, (∃ v, range.contains v = true) ↔
      range.lower.compare? range.upper = some .lt ∨ range.lower.compare? range.upper = some .eq) ∧
    (∀ (r : Record) (field : String) (v actual : Value), r.find? field = some actual →
      actual.kind = v.kind →
      (∃! t, t ∈ [.compares .below v, .equals v, .compares .above v] ∧
        r.answer ⟨field, t⟩ = true) ∧
      r.answer ⟨field, .compares .atLeast v⟩ =
        (r.answer ⟨field, .compares .above v⟩ || r.answer ⟨field, .equals v⟩) ∧
      r.answer ⟨field, .compares .atMost v⟩ =
        (r.answer ⟨field, .compares .below v⟩ || r.answer ⟨field, .equals v⟩)) ∧
    (∀ (r : Record) (field : String) (v : Value),
      (∀ actual, r.find? field = some actual → actual.kind ≠ v.kind) →
      ∀ t ∈ Test.equals v :: Comparison.all.map (.compares · v), r.answer ⟨field, t⟩ = false) ∧
    ∀ d e : Decimal, (Value.number d).compare? (.number e) = some (compare d.toRat e.toRat) := by
  refine ⟨fun a b => Value.compare?_eq_none_iff, Value.compare?_self, Value.compare?_swap,
    fun a b c o o' => Value.compare?_eq_then, Value.sameAs_equivalence,
    fun a b => Value.sameAs_of_alike, ⟨.identifier "x", .quoted "x", by decide, by decide⟩,
    fun range => Range.exists_contains_iff.trans Value.atMost_iff, ?_, ?_, ?_⟩
  · intro r field v actual hfind hkind
    obtain ⟨o, ho⟩ := Value.exists_compare?_eq hkind
    simp only [Record.answer_of_find? hfind]
    exact ⟨Test.existsUnique_alternatives ho, Test.holds_atLeast ho, Test.holds_atMost ho⟩
  · intro r field v h t ht
    exact Record.answer_eq_false h ht
  · intro d e
    exact congrArg some (Decimal.compare_eq_compare_toRat d e)

/-- The numbers `1.5`, `1.50` and `2`, and a record that holds the second of them and a text. -/
theorem values_preordered_within_kinds_scales :
    let short : Decimal := ⟨false, 15, 1, by decide, by decide⟩
    let long : Decimal := ⟨false, 150, 2, by decide, by decide⟩
    let two : Decimal := ⟨false, 2, 0, by decide, by decide⟩
    let v : Value := .number short
    let r : Record := (FieldMap.empty.insert "size" (.number long)).insert "name" (.quoted "x")
    v.compare? (.number long) = some .eq ∧ (Value.number long).compare? (.number two) = some .lt ∧
      v.compare? (.number two) = some (Ordering.eq.then .lt) ∧
    v.alike (.number long) = true ∧ v.sameAs (.number long) = true ∧
    r.find? "size" = some (.number long) ∧ (Value.number long).kind = v.kind ∧
      (∃! t, t ∈ [.compares .below v, .equals v, .compares .above v] ∧
        r.answer ⟨"size", t⟩ = true) ∧
    (∀ actual, r.find? "name" = some actual → actual.kind ≠ v.kind) ∧
      r.answer ⟨"name", .compares .atMost v⟩ = false := by
  intro short long two v r
  have hlevel : v.compare? (.number long) = some .eq := by decide
  have hbelow : (Value.number long).compare? (.number two) = some .lt := by decide
  have halike : v.alike (.number long) = true := by decide
  have hsize : r.find? "size" = some (.number long) := by decide
  have hname (actual : Value) (h : r.find? "name" = some actual) : actual.kind ≠ v.kind := by
    obtain rfl : .quoted "x" = actual := Option.some.inj h
    decide
  obtain ⟨-, -, -, htrans, -, hsame, -, -, hheld, hother, -⟩ := values_preordered_within_kinds
  exact ⟨hlevel, hbelow, htrans v _ _ _ _ hlevel hbelow (by decide) (by decide), halike,
    hsame v _ halike, hsize, rfl, (hheld r "size" v _ hsize rfl).1, hname,
    hother r "name" v hname _ (by simp [Comparison.all])⟩

end FieldFilter
