import FieldFilter.Text.Digits

/-!
# Decimal numbers

A decimal is a sign and a magnitude below 2^96, over a power of ten of at most 28 places. Sign and
scale are part of a decimal beyond the number that it denotes: `1.0` and `1.00` are different
decimals of one number, and so are zero and minus zero. Ordering looks at the number alone, by exact
cross-multiplication.
-/

namespace FieldFilter

/-- The first magnitude that a decimal does not reach, 2^96. -/
def Decimal.magnitudeBound : Nat := 0x1000000000000000000000000

/-- The largest number of places after the point. -/
def Decimal.maxScale : Nat := 28

/-- A decimal number with a sign and a scale. -/
structure Decimal where
  /-- Whether the decimal has a minus sign; a zero may have one. -/
  negative : Bool
  /-- The digits of the decimal, read without its point. -/
  magnitude : Nat
  /-- The number of digits after the point. -/
  scale : Nat
  magnitude_lt : magnitude < Decimal.magnitudeBound := by decide
  scale_le : scale ≤ Decimal.maxScale := by decide
  deriving DecidableEq, Repr

namespace Decimal

/-- The decimal of a sign, a magnitude and a scale, if these are within their bounds. -/
def ofParts? (negative : Bool) (magnitude scale : Nat) : Option Decimal :=
  if h : magnitude < magnitudeBound ∧ scale ≤ maxScale then
    some ⟨negative, magnitude, scale, h.1, h.2⟩
  else none

/-- A decimal is the decimal of its parts. -/
theorem ofParts?_parts (d : Decimal) : ofParts? d.negative d.magnitude d.scale = some d :=
  dif_pos ⟨d.magnitude_lt, d.scale_le⟩

/-- The decimal of a whole number, if its magnitude is within the bound. -/
def ofInt? (n : Int) : Option Decimal := ofParts? (decide (n < 0)) n.natAbs 0

/-- The whole number that the digits of the decimal spell with its sign; minus zero counts as
zero. -/
def mantissa (d : Decimal) : Int := if d.negative then -d.magnitude else d.magnitude

/-- Comparison of the denoted numbers, whatever the scales. -/
def compare (a b : Decimal) : Ordering :=
  Ord.compare (a.mantissa * tenPow b.scale) (b.mantissa * tenPow a.scale)

/-- The digits of a magnitude, with a point in front of the last `scale` of them. -/
def positional (magnitude scale : Nat) : List Char :=
  if scale = 0 then digits magnitude
  else digits (magnitude / tenPow scale) ++ '.' :: lastDigits scale magnitude

/-- The characters of a decimal: its sign if that is a minus, then its digits to the last place. -/
def toList (d : Decimal) : List Char :=
  if d.negative then '-' :: positional d.magnitude d.scale
  else positional d.magnitude d.scale

/-- The text of a decimal, which keeps its scale. -/
def toString (d : Decimal) : String := String.ofList d.toList

end Decimal

end FieldFilter
