import FieldFilter.Proofs.Value.Meaning

/-!
# The order of values

Values of one kind are totally preordered, and values of different kinds are not ordered at all. The
laws are those of the order of meanings, which is an order of texts, of rational numbers and of
truth values side by side. What values add is that several of them may stand at one place of the
order: the two spellings of a text, and the scales of a number.
-/

namespace FieldFilter

/-! ## Meanings -/

/-- Comparisons that do not go down compose, and the whole goes up if one of them does. -/
theorem compare_eq_then {α : Type} [Ord α] [Std.TransOrd α] [Std.LawfulEqOrd α] {a b c : α}
    (hab : compare a b ≠ .gt) (hbc : compare b c ≠ .gt) :
    compare a c = (compare a b).then (compare b c) := by
  cases h : compare a b with
  | lt =>
    have hle : (compare b c).isLE = true := Ordering.isLE_iff_ne_gt.2 hbc
    exact Std.TransCmp.lt_of_lt_of_isLE h hle
  | eq =>
    obtain rfl := Std.LawfulEqOrd.eq_of_compare h
    rfl
  | gt => exact absurd h hab

namespace Meaning

/-- Exchanging the sides turns the outcome round. -/
theorem compare?_swap (a b : Meaning) : b.compare? a = (a.compare? b).map Ordering.swap := by
  cases a <;> cases b
  case text.text => exact congrArg some Std.OrientedOrd.eq_swap
  case number.number => exact congrArg some Std.OrientedOrd.eq_swap
  case boolean.boolean => exact congrArg some Std.OrientedOrd.eq_swap
  all_goals rfl

/-- Comparisons of meanings that do not go down compose. -/
theorem compare?_eq_then {a b c : Meaning} {o o' : Ordering} (hab : a.compare? b = some o)
    (hbc : b.compare? c = some o') (ho : o ≠ .gt) (ho' : o' ≠ .gt) :
    a.compare? c = some (o.then o') := by
  -- Three meanings of one kind are left, and each kind has a lawful order.
  cases a <;> cases b <;> cases hab <;> cases c <;> cases hbc <;>
    exact congrArg some (compare_eq_then ho ho')

end Meaning

/-! ## Values -/

namespace Value

/-- Values are comparable exactly if they are of one kind. -/
theorem compare?_eq_none_iff {a b : Value} : a.compare? b = none ↔ a.kind ≠ b.kind := by
  cases a <;> cases b <;> simp [compare?, kind, text?]

/-- Values of one kind have an order. -/
theorem exists_compare?_eq {a b : Value} (h : a.kind = b.kind) : ∃ o, a.compare? b = some o := by
  apply Option.ne_none_iff_exists'.1
  intro hnone
  exact compare?_eq_none_iff.1 hnone h

/-- Exchanging the sides turns the outcome round. -/
theorem compare?_swap (a b : Value) : b.compare? a = (a.compare? b).map Ordering.swap := by
  rw [compare?_eq, compare?_eq, Meaning.compare?_swap]

/-- Comparisons of values that do not go down compose, and the whole goes up if one of them does. -/
theorem compare?_eq_then {a b c : Value} {o o' : Ordering} (hab : a.compare? b = some o)
    (hbc : b.compare? c = some o') (ho : o ≠ .gt) (ho' : o' ≠ .gt) :
    a.compare? c = some (o.then o') := by
  rw [compare?_eq] at hab hbc ⊢
  exact Meaning.compare?_eq_then hab hbc ho ho'

/-- Every value is level with itself. -/
theorem compare?_self (a : Value) : a.compare? a = some .eq := by
  rw [compare?_eq]
  exact Meaning.compare?_eq_some_eq_iff.2 rfl

/-- Being the same is an equivalence. -/
theorem sameAs_equivalence : Equivalence fun a b : Value => a.sameAs b = true where
  refl _ := sameAs_iff.2 rfl
  symm h := sameAs_iff.2 (sameAs_iff.1 h).symm
  trans h h' := sameAs_iff.2 ((sameAs_iff.1 h).trans (sameAs_iff.1 h'))

/-- Values that are alike as written are the same. -/
theorem sameAs_of_alike {a b : Value} (h : a.alike b = true) : a.sameAs b = true := by
  apply sameAs_iff.2
  cases a <;> cases b <;> simp only [alike, Bool.false_eq_true, beq_iff_eq] at h
  case number.number => exact congrArg Meaning.number (Decimal.compare_eq_eq_iff.1 h)
  all_goals rw [h]

/-- The first value is of the kind of the second one and does not exceed it. -/
def AtMost (a b : Value) : Prop := ∃ o, a.compare? b = some o ∧ o ≠ .gt

theorem atMost_iff {a b : Value} :
    a.AtMost b ↔ a.compare? b = some .lt ∨ a.compare? b = some .eq := by
  constructor
  · rintro ⟨o, h, ho⟩
    cases o with
    | lt => exact .inl h
    | eq => exact .inr h
    | gt => exact absurd rfl ho
  · rintro (h | h)
    · exact ⟨.lt, h, by decide⟩
    · exact ⟨.eq, h, by decide⟩

theorem AtMost.refl (a : Value) : a.AtMost a := ⟨.eq, compare?_self a, by decide⟩

theorem AtMost.trans {a b c : Value} (hab : a.AtMost b) (hbc : b.AtMost c) : a.AtMost c := by
  obtain ⟨o, hab, ho⟩ := hab
  obtain ⟨o', hbc, ho'⟩ := hbc
  refine ⟨o.then o', compare?_eq_then hab hbc ho ho', ?_⟩
  cases o with
  | lt => exact Ordering.noConfusion
  | eq => exact ho'
  | gt => exact absurd rfl ho

end Value

/-! ## Ranges -/

namespace Range

/-- A range contains what lies between its bounds. -/
theorem contains_iff {r : Range} {v : Value} :
    r.contains v = true ↔ r.lower.AtMost v ∧ v.AtMost r.upper := by
  simp [contains, Value.AtMost, Option.any_eq_true]

/-- A range contains something exactly if its bounds are in order, and then its lower bound. -/
theorem exists_contains_iff {r : Range} :
    (∃ v, r.contains v = true) ↔ r.lower.AtMost r.upper := by
  constructor
  · rintro ⟨v, h⟩
    obtain ⟨hlower, hupper⟩ := contains_iff.1 h
    exact hlower.trans hupper
  · intro h
    exact ⟨r.lower, contains_iff.2 ⟨.refl r.lower, h⟩⟩

end Range

end FieldFilter
