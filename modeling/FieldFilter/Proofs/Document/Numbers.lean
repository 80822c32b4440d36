import FieldFilter.Predicate

/-!
# Numbers of a predicate

Only the numbers of a predicate may come back from a document as others than they went in. The
numbers are listed from left to right, and exchanging them one by one for equal numbers leaves an
equal predicate of the same shape.
-/

namespace FieldFilter

variable {f : Decimal → Decimal}

/-! ## Values and ranges -/

/-- Exchange the number of a number value. -/
def Value.mapNumbers (f : Decimal → Decimal) : Value → Value
  | number d => number (f d)
  | identifier s => identifier s
  | boolean b => boolean b
  | quoted s => quoted s

/-- The numbers of a value: one or none. -/
def Value.numbers (v : Value) : List Decimal := v.number?.toList

/-- The number of a value with its number exchanged is the new one. -/
theorem Value.numbers_mapNumbers (v : Value) : (v.mapNumbers f).numbers = v.numbers.map f := by
  cases v <;> rfl

/-- A number exchanged for an equal one leaves an equal value. -/
theorem Value.alike_mapNumbers (hf : ∀ d, (f d).compare d = .eq) (v : Value) :
    (v.mapNumbers f).alike v = true := by
  cases v with
  | number d => simp [mapNumbers, alike, hf]
  | identifier | boolean | quoted => simp [mapNumbers, alike]

/-- Exchange the numbers of a range. -/
def Range.mapNumbers (f : Decimal → Decimal) (r : Range) : Range :=
  ⟨r.lower.mapNumbers f, r.upper.mapNumbers f⟩

/-- The numbers of a range. -/
def Range.numbers (r : Range) : List Decimal := r.lower.numbers ++ r.upper.numbers

/-- The numbers of a range with its numbers exchanged are the new ones, the lower one first. -/
theorem Range.numbers_mapNumbers (r : Range) : (r.mapNumbers f).numbers = r.numbers.map f := by
  simp only [numbers, mapNumbers, Value.numbers_mapNumbers, List.map_append]

/-- Bounds exchanged for equal ones leave an equal range. -/
theorem Range.alike_mapNumbers (hf : ∀ d, (f d).compare d = .eq) (r : Range) :
    (r.mapNumbers f).alike r = true := by
  rw [alike, Bool.and_eq_true]
  exact ⟨r.lower.alike_mapNumbers hf, r.upper.alike_mapNumbers hf⟩

/-! ## Tests -/

/-- Exchange the numbers of a test. -/
def Test.mapNumbers (f : Decimal → Decimal) : Test → Test
  | equals v => equals (v.mapNumbers f)
  | within r => within (r.mapNumbers f)
  | fits p => fits p
  | compares op v => compares op (v.mapNumbers f)

/-- The numbers of a test. -/
def Test.numbers : Test → List Decimal
  | equals v | compares _ v => v.numbers
  | within r => r.numbers
  | fits _ => []

/-- The numbers of a test with its numbers exchanged are the new ones; the text of a pattern is not
read for numbers. -/
theorem Test.numbers_mapNumbers (t : Test) : (t.mapNumbers f).numbers = t.numbers.map f := by
  cases t with
  | equals v | compares op v => exact v.numbers_mapNumbers
  | within r => exact r.numbers_mapNumbers
  | fits p => rfl

/-- Numbers exchanged for equal ones leave an equal test. -/
theorem Test.alike_mapNumbers (hf : ∀ d, (f d).compare d = .eq) (t : Test) :
    (t.mapNumbers f).alike t = true := by
  cases t with
  | equals v => exact v.alike_mapNumbers hf
  | within r => exact r.alike_mapNumbers hf
  | fits p => simp [mapNumbers, alike]
  | compares op v => simp [mapNumbers, alike, v.alike_mapNumbers hf]

/-! ## Predicates -/

namespace Predicate

/-- Exchange the numbers of a predicate. -/
def mapNumbers (f : Decimal → Decimal) : Predicate → Predicate
  | check c => check ⟨c.field, c.test.mapNumbers f⟩
  | join c left right => join c (left.mapNumbers f) (right.mapNumbers f)
  | not operand => not (operand.mapNumbers f)
  | always b => always b

/-- The numbers of a predicate from left to right. -/
def numbers (p : Predicate) : List Decimal := p.checks.flatMap fun c => c.test.numbers

/-- The numbers of a predicate with its numbers exchanged are the new ones, in the same order. -/
theorem numbers_mapNumbers (p : Predicate) : (p.mapNumbers f).numbers = p.numbers.map f := by
  induction p with
  | check c => simp [mapNumbers, numbers, checks, Test.numbers_mapNumbers]
  | join c left right ihl ihr =>
    have hjoin (l r : Predicate) : (join c l r).numbers = l.numbers ++ r.numbers :=
      List.flatMap_append
    rw [mapNumbers, hjoin, hjoin, ihl, ihr, List.map_append]
  | not operand ih => exact ih
  | always b => rfl

/-- Numbers exchanged for equal ones leave an equal predicate. -/
theorem alike_mapNumbers (hf : ∀ d, (f d).compare d = .eq) (p : Predicate) :
    (p.mapNumbers f).alike p = true := by
  induction p with
  | check c => simp [mapNumbers, alike, c.test.alike_mapNumbers hf]
  | join c left right ihl ihr => simp [mapNumbers, alike, ihl, ihr]
  | not operand ih => exact ih
  | always b => simp [mapNumbers, alike]

end Predicate

end FieldFilter
