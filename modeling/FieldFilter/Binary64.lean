import FieldFilter.Text.Digits

/-!
# Binary floating point

Magnitudes of double precision: a significand below 2^53 times a power of two between 2^-1074 and
2^971. They are computed exactly, as ratios of natural numbers that are rounded once, ties going to
the even significand. `shortest` finds the fewest decimal digits that still single out a magnitude,
and of those the nearest; `positional`, `scientific` and `toList` write them.
-/

namespace FieldFilter

/-- A finite magnitude of double precision. -/
structure Binary64 where
  significand : Nat
  exponent : Int
  deriving DecidableEq, Repr

namespace Binary64

/-- A power of two. -/
def twoPow (n : Nat) : Nat := Nat.pow 2 n

/-- The smallest exponent. -/
def minExponent : Int := -1074

/-- The largest exponent. -/
def maxExponent : Int := 971

/-- A ratio times a power of two, again as a ratio. -/
def scaleRatio (num den : Nat) (exponent : Int) : Nat × Nat :=
  if 0 ≤ exponent then (num * twoPow exponent.toNat, den)
  else (num, den * twoPow (-exponent).toNat)

/-- The quotient rounded to the nearest whole number, ties going to the even one. -/
def divRoundEven (num den : Nat) : Nat :=
  let q := num / den
  let r := num % den
  if den < 2 * r || (2 * r == den && q % 2 == 1) then q + 1 else q

/-- The magnitude nearest to a ratio, if it is in range. -/
def nearest (num den : Nat) : Option Binary64 :=
  let estimate : Int := (num.log2 : Int) - den.log2 - 53
  let (n, d) := scaleRatio num den (-estimate)
  let exponent := max minExponent (if n < d * twoPow 53 then estimate else estimate + 1)
  let (n, d) := scaleRatio num den (-exponent)
  let significand := divRoundEven n d
  let result : Binary64 :=
    if significand = twoPow 53 then ⟨twoPow 52, exponent + 1⟩ else ⟨significand, exponent⟩
  if result.exponent ≤ maxExponent then some result else none

/-- The exact value of a magnitude as a ratio. -/
def ratio (b : Binary64) : Nat × Nat := scaleRatio b.significand 1 b.exponent

/-- The rounded product. -/
def mul (a b : Binary64) : Option Binary64 :=
  nearest (a.ratio.1 * b.ratio.1) (a.ratio.2 * b.ratio.2)

/-- The rounded quotient by a magnitude that is not zero. -/
def div (a b : Binary64) : Option Binary64 :=
  nearest (a.ratio.1 * b.ratio.2) (a.ratio.2 * b.ratio.1)

/-- The largest power of ten in range has this exponent. -/
def maxPowerOfTen : Nat := 308

/-- The magnitude nearest to a power of ten. -/
def powerOfTen (n : Nat) : Option Binary64 := nearest (tenPow n) 1

/-- A magnitude times a power of ten, if that is in range. -/
def scaleUp (b : Binary64) (n : Nat) : Option Binary64 := do
  if maxPowerOfTen < n then
    if b.significand = 0 then some b else none
  else b.mul (← powerOfTen n)

/-- A magnitude over a power of ten, divided in steps of at most the largest power in range. -/
def scaleDown (b : Binary64) (n : Nat) : Option Binary64 := do
  if n ≤ maxPowerOfTen then b.div (← powerOfTen n)
  else if b.significand = 0 then some b
  else
    let b ← b.div (← powerOfTen maxPowerOfTen)
    b.scaleDown (n - maxPowerOfTen)
termination_by n
decreasing_by
  simp only [maxPowerOfTen] at *
  omega

/-! ## Shortest digits -/

/-- The exponent of the highest decimal digit of a ratio. -/
def decimalExponent (num den : Nat) : Int :=
  let estimate : Int := (digits num).length - (digits den).length
  let reaches : Bool :=
    if 0 ≤ estimate then den * tenPow estimate.toNat ≤ num
    else den ≤ num * tenPow (-estimate).toNat
  if reaches then estimate else estimate - 1

/-- The ratios that round to a magnitude: its lower and upper end over four times the unit of its
last place, and whether the ends belong to it. The lower end is nearer below a power of two. -/
def roundingInterval (b : Binary64) : Nat × Nat × Bool :=
  let below := if b.significand = twoPow 52 ∧ minExponent < b.exponent then 1 else 2
  (4 * b.significand - below, 4 * b.significand + 2, b.significand % 2 == 0)

/-- Which of two equally near points of a grid is taken. -/
inductive Tie where
  /-- The upper one. -/
  | up
  /-- The one with the even index. -/
  | even
  deriving DecidableEq, Repr

/-- Whether the lower of two equally near points is taken, by its index. -/
def Tie.takesLower : Tie → Nat → Bool
  | up, _ => false
  | even, k => k % 2 == 0

/-- The point of the decimal grid with the given step that is nearest to a magnitude, if one of the
neighbours of the magnitude on the grid rounds to it. -/
def gridPoint? (tie : Tie) (b : Binary64) (step : Int) : Option Nat :=
  let (low, high, closed) := b.roundingInterval
  let (unit, den) := scaleRatio 1 1 (b.exponent - 2)
  let (up, down) := if 0 ≤ step then (tenPow step.toNat, 1) else (1, tenPow (-step).toNat)
  let inside := fun k : Nat =>
    let point := k * up * den
    if closed then low * unit * down ≤ point && point ≤ high * unit * down
    else low * unit * down < point && point < high * unit * down
  let exact := 4 * b.significand * unit * down
  let k := exact / (up * den)
  let middle := (2 * k + 1) * up * den
  let isLower := 2 * exact < middle || (2 * exact == middle && tie.takesLower k)
  if inside k && (!inside (k + 1) || isLower) then some k
  else if inside (k + 1) then some (k + 1)
  else none

/-- The fewest decimal digits that round to a magnitude and the power of ten that they count. -/
def shortest (tie : Tie) (b : Binary64) : Nat × Int :=
  let top := decimalExponent b.ratio.1 b.ratio.2
  let hit := (List.range 17).findSome? fun n : Nat =>
    (gridPoint? tie b (top - n)).map fun k => (k, top - n)
  match hit with
  | some (k, step) => if k % 10 = 0 then (k / 10, step + 1) else (k, step)
  | none => (0, 0)

/-- A magnitude in its shortest digits, without an exponent. -/
def positional (tie : Tie) (b : Binary64) : List Char :=
  if b.significand = 0 then ['0']
  else
    let (k, step) := shortest tie b
    if 0 ≤ step then digits k ++ List.replicate step.toNat '0'
    else
      let places := (-step).toNat
      digits (k / tenPow places) ++ '.' :: lastDigits places k

/-- A magnitude in its shortest digits, one of them in front of the point, with an exponent. -/
def scientific (tie : Tie) (b : Binary64) : List Char :=
  let (k, step) := shortest tie b
  let ds := digits k
  let exponent := step + ds.length - 1
  let fraction := if ds.length = 1 then [] else '.' :: ds.drop 1
  let sign := if exponent < 0 then ['-'] else []
  ds.take 1 ++ fraction ++ 'e' :: (sign ++ digits exponent.natAbs)

/-- A magnitude in its shortest digits, always with a point or an exponent, by which it is told from
a whole number: positional from 10^-5 up to 10^16, scientific otherwise. -/
def toList (b : Binary64) : List Char :=
  let (k, step) := shortest .even b
  let places := step + (digits k).length
  if places < -4 ∨ 16 < places then b.scientific .even
  else if 0 ≤ step then b.positional .even ++ ['.', '0']
  else b.positional .even

end Binary64

end FieldFilter
