import FieldFilter.Value
import Mathlib.Algebra.Order.Ring.Rat
import Mathlib.Data.Rat.Cast.Order
import Mathlib.Order.Compare
import Mathlib.Tactic.FieldSimp

/-!
# What values say

A value is more than what it says: text is a bare word or stands in quotes, and a number has a
scale and perhaps a minus sign at a zero. What a value says is its meaning. Comparison looks at
meanings alone, and two values are the same exactly if their meanings are equal.
-/

namespace FieldFilter

/-! ## Numbers -/

namespace Decimal

/-- The number that a decimal denotes. -/
def toRat (d : Decimal) : ℚ := d.mantissa / tenPow d.scale

/-- Comparison by cross-multiplication is the comparison of the denoted numbers. -/
theorem compare_eq_compare_toRat (a b : Decimal) :
    a.compare b = Ord.compare a.toRat b.toRat := by
  have ha : (0 : ℚ) < tenPow a.scale := by exact_mod_cast tenPow_pos a.scale
  have hb : (0 : ℚ) < tenPow b.scale := by exact_mod_cast tenPow_pos b.scale
  have hleft : ((a.mantissa * tenPow b.scale : ℤ) : ℚ) =
      a.toRat * (tenPow a.scale * tenPow b.scale) := by
    rw [toRat]
    push_cast
    field_simp
  have hright : ((b.mantissa * tenPow a.scale : ℤ) : ℚ) =
      b.toRat * (tenPow a.scale * tenPow b.scale) := by
    rw [toRat]
    push_cast
    field_simp
  calc a.compare b
      = cmp (a.mantissa * tenPow b.scale : ℤ) (b.mantissa * tenPow a.scale) :=
        (cmp_eq_compare _ _).symm
    _ = cmp ((a.mantissa * tenPow b.scale : ℤ) : ℚ) ((b.mantissa * tenPow a.scale : ℤ) : ℚ) :=
        (Int.cast_strictMono.cmp_map_eq _ _).symm
    _ = cmp a.toRat b.toRat := by
        rw [hleft, hright, cmp_mul_pos_right (mul_pos ha hb)]
    _ = Ord.compare a.toRat b.toRat := cmp_eq_compare _ _

/-- Decimals compare as equal exactly if they denote one number. -/
theorem compare_eq_eq_iff {a b : Decimal} : a.compare b = .eq ↔ a.toRat = b.toRat := by
  rw [compare_eq_compare_toRat, compare_eq_iff_eq]

end Decimal

/-! ## Meanings -/

/-- What a value says, whatever its spelling. -/
inductive Meaning where
  | text (s : String)
  | number (n : ℚ)
  | boolean (b : Bool)

namespace Meaning

/-- The order of two meanings of one kind. -/
def compare? : Meaning → Meaning → Option Ordering
  | text s, text t => some (compare s t)
  | number m, number n => some (compare m n)
  | boolean a, boolean b => some (compare a b)
  | _, _ => none

/-- The text of a meaning that is one. -/
def text? : Meaning → Option String
  | text s => some s
  | _ => none

/-- Meanings compare as equal exactly if they are. -/
theorem compare?_eq_some_eq_iff {a b : Meaning} : a.compare? b = some .eq ↔ a = b := by
  cases a <;> cases b <;> simp [compare?]

end Meaning

namespace Value

/-- What a value says. -/
def meaning : Value → Meaning
  | identifier s | quoted s => .text s
  | number d => .number d.toRat
  | boolean b => .boolean b

/-- Comparison looks at meanings alone. -/
theorem compare?_eq (v w : Value) : v.compare? w = v.meaning.compare? w.meaning := by
  cases v <;> cases w <;>
    simp [compare?, text?, meaning, Meaning.compare?, Decimal.compare_eq_compare_toRat]

/-- The text of a value is part of its meaning. -/
theorem text?_eq (v : Value) : v.text? = v.meaning.text? := by
  cases v <;> rfl

/-- Values are the same exactly if they say the same. -/
theorem sameAs_iff {v w : Value} : v.sameAs w = true ↔ v.meaning = w.meaning := by
  rw [sameAs, compare?_eq, beq_iff_eq, Meaning.compare?_eq_some_eq_iff]

end Value

end FieldFilter
