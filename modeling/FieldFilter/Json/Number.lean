import FieldFilter.Binary64
import FieldFilter.Decimal.Reader
import FieldFilter.Json.Fault

/-!
# Numbers in documents

A number is a whole number of 64 bits if it is written as one and fits, and a double otherwise. The
digits of a double are gathered into 64 bits first and then scaled by a power of ten.
-/

namespace FieldFilter.Json

/-- A number as it is taken from a document. -/
inductive Number where
  /-- A whole number from zero to 2^64 - 1. -/
  | natural (n : Nat)
  /-- A whole number from -2^63 to -1, by its magnitude. -/
  | negative (magnitude : Nat)
  /-- A double, by its magnitude and whether it has a minus sign. -/
  | binary (below : Bool) (magnitude : Binary64)
  deriving DecidableEq, Repr

/-- The parts of a number as it is written. -/
structure Numeral where
  negative : Bool
  whole : List Char
  /-- The digits after the point, if there is one. -/
  fraction : Option (List Char)
  /-- The exponent, if there is one: whether it is negative, and its digits. -/
  exponent : Option (Bool × List Char)
  deriving DecidableEq, Repr

namespace Numeral

/-- The fault of a number that breaks off before some text. -/
def breakOff (rest : List Char) : Fault := if rest.isEmpty then .ended else .malformed

/-- Take a run of digits, of which there must be one. -/
def takeDigits (cs : List Char) : Except Fault (List Char × List Char) :=
  match cs.takeWhile Char.isDigit with
  | [] => .error (breakOff cs)
  | ds => .ok (ds, cs.dropWhile Char.isDigit)

/-- Take a whole part, which has no leading zeros. -/
def takeWhole (cs : List Char) : Except Fault (List Char × List Char) :=
  match cs with
  | '0' :: rest =>
    if (rest.takeWhile Char.isDigit).isEmpty then .ok (['0'], rest) else .error .malformed
  | cs => takeDigits cs

/-- Take a fraction if there is one. -/
def takeFraction (cs : List Char) : Except Fault (Option (List Char) × List Char) :=
  match cs with
  | '.' :: cs => do
    let (ds, rest) ← takeDigits cs
    return (some ds, rest)
  | cs => .ok (none, cs)

/-- Take a minus sign if there is one. -/
def takeMinus : List Char → Bool × List Char
  | '-' :: cs => (true, cs)
  | cs => (false, cs)

/-- Take a sign if there is one, and tell whether it is a minus. -/
def takeSign : List Char → Bool × List Char
  | '+' :: cs => (false, cs)
  | cs => takeMinus cs

/-- Take an exponent if there is one. -/
def takeExponent (cs : List Char) : Except Fault (Option (Bool × List Char) × List Char) :=
  match cs with
  | [] => .ok (none, [])
  | c :: cs =>
    if c = 'e' ∨ c = 'E' then do
      let (ds, rest) ← takeDigits (takeSign cs).2
      return (some ((takeSign cs).1, ds), rest)
    else .ok (none, c :: cs)

/-- Take a number from the front of a text. -/
def take (cs : List Char) : Except Fault (Numeral × List Char) := do
  let (whole, afterWhole) ← takeWhole (takeMinus cs).2
  let (fraction, afterFraction) ← takeFraction afterWhole
  let (exponent, rest) ← takeExponent afterFraction
  return (⟨(takeMinus cs).1, whole, fraction, exponent⟩, rest)

/-- Digits that are taken are at least one. -/
theorem length_lt_of_takeDigits {cs ds rest : List Char} (h : takeDigits cs = .ok (ds, rest)) :
    rest.length < cs.length := by
  unfold takeDigits at h
  split at h
  · cases h
  · rename_i hne
    cases h
    have ha := congrArg List.length (List.takeWhile_append_dropWhile (p := Char.isDigit) (l := cs))
    have hp := List.length_pos_iff.2 hne
    rw [List.length_append] at ha
    omega

/-- A whole part has a digit. -/
theorem length_lt_of_takeWhole {cs ds rest : List Char} (h : takeWhole cs = .ok (ds, rest)) :
    rest.length < cs.length := by
  unfold takeWhole at h
  split at h
  · split at h
    · cases h
      simp
    · cases h
  · exact length_lt_of_takeDigits h

/-- A fraction may be missing, and nothing is put back. -/
theorem length_le_of_takeFraction {cs rest : List Char} {f : Option (List Char)}
    (h : takeFraction cs = .ok (f, rest)) : rest.length ≤ cs.length := by
  unfold takeFraction at h
  split at h
  · rename_i cs
    cases hd : takeDigits cs with
    | error e => simp [hd, bind, Except.bind] at h
    | ok r =>
      simp only [hd, bind, Except.bind, pure, Except.pure, Except.ok.injEq, Prod.mk.injEq] at h
      have := length_lt_of_takeDigits hd
      rw [h.2] at this
      simp only [List.length_cons]
      omega
  · cases h
    exact Nat.le_refl _

theorem length_takeMinus_le (cs : List Char) : (takeMinus cs).2.length ≤ cs.length := by
  unfold takeMinus
  split <;> simp

theorem length_takeSign_le (cs : List Char) : (takeSign cs).2.length ≤ cs.length := by
  unfold takeSign
  split
  · simp
  · exact length_takeMinus_le _

/-- So may an exponent. -/
theorem length_le_of_takeExponent {cs rest : List Char} {e : Option (Bool × List Char)}
    (h : takeExponent cs = .ok (e, rest)) : rest.length ≤ cs.length := by
  unfold takeExponent at h
  split at h
  · cases h
    exact Nat.le_refl _
  · rename_i c cs
    split at h
    · cases hd : takeDigits (takeSign cs).2 with
      | error e => simp [hd, bind, Except.bind] at h
      | ok r =>
        simp only [hd, bind, Except.bind, pure, Except.pure, Except.ok.injEq, Prod.mk.injEq] at h
        have hl := length_lt_of_takeDigits hd
        have := length_takeSign_le cs
        rw [h.2] at hl
        simp only [List.length_cons]
        omega
    · cases h
      exact Nat.le_refl _

/-- What follows a number is shorter than the text that starts with it. -/
theorem length_lt_of_take {cs rest : List Char} {n : Numeral} (h : take cs = .ok (n, rest)) :
    rest.length < cs.length := by
  unfold take at h
  cases hw : takeWhole (takeMinus cs).2 with
  | error e => simp [hw, bind, Except.bind] at h
  | ok w =>
    simp only [hw, bind, Except.bind] at h
    cases hf : takeFraction w.2 with
    | error e => simp [hf] at h
    | ok f =>
      simp only [hf] at h
      cases he : takeExponent f.2 with
      | error e => simp [he] at h
      | ok e =>
        simp only [he, pure, Except.pure, Except.ok.injEq, Prod.mk.injEq] at h
        have := length_takeMinus_le cs
        have := length_lt_of_takeWhole hw
        have := length_le_of_takeFraction hf
        have := length_le_of_takeExponent he
        rw [h.2] at this
        omega

/-- The first magnitude that does not fit 64 bits. -/
def significandBound : Nat := 0x10000000000000000

/-- The largest magnitude of a negative whole number. -/
def negativeBound : Nat := 0x8000000000000000

/-- The first exponent that is not read any further. -/
def exponentBound : Nat := 0x80000000

/-- Gather digits into a significand as long as it fits; the digits that do not are returned. -/
def gather (significand : Nat) : List Char → Nat × List Char
  | [] => (significand, [])
  | c :: cs =>
    if pushDigit significand c < significandBound then gather (pushDigit significand c) cs
    else (significand, c :: cs)

/-- The significand of a numeral and the power of ten that it counts: digits of the whole part that
do not fit raise the power, digits of the fraction that do not fit are dropped. -/
def significand (n : Numeral) : Nat × Int :=
  let (m, skipped) := gather 0 n.whole
  let fraction := n.fraction.getD []
  let (m, dropped) := gather m fraction
  (m, (skipped.length : Int) - ((fraction.length : Int) - dropped.length))

/-- A significand scaled by a power of ten, if that is in range. -/
def scaled (significand : Nat) (power : Int) : Option Binary64 := do
  let b ← Binary64.nearest significand 1
  if 0 ≤ power then b.scaleUp power.toNat else b.scaleDown (-power).toNat

/-- The double of a numeral, if it is in range. -/
def binary? (n : Numeral) : Option Binary64 :=
  let (m, power) := n.significand
  match n.exponent with
  | none => scaled m power
  | some (negative, ds) =>
    let e := ofDigits ds
    if e < exponentBound then scaled m (if negative then power - e else power + e)
    else if m = 0 ∨ negative then some ⟨0, Binary64.minExponent⟩
    else none

/-- The number of a numeral, if it is in range. A whole number that fits is kept whole; minus zero
and what lies below the smallest whole number are doubles. -/
def number? (n : Numeral) : Option Number :=
  let m := ofDigits n.whole
  match n.fraction, n.exponent with
  | none, none =>
    if significandBound ≤ m then n.binary?.map (.binary n.negative)
    else if !n.negative then some (.natural m)
    else if m = 0 ∨ negativeBound < m then n.binary?.map (.binary true)
    else some (.negative m)
  | _, _ => n.binary?.map (.binary n.negative)

end Numeral

namespace Number

/-- The characters of a number. A double keeps a point or an exponent, so that it is a double again
when it is taken from them. -/
def toList : Number → List Char
  | natural n => digits n
  | negative n => '-' :: digits n
  | binary below b => if below then '-' :: b.toList else b.toList

/-- The characters of a number, never with an exponent: a whole double looks like a whole number. -/
def positional : Number → List Char
  | natural n => digits n
  | negative n => '-' :: digits n
  | binary below b => if below then '-' :: b.positional .up else b.positional .up

/-- The decimal nearest to a number, if it is in range. -/
def decimal? (n : Number) : Option Decimal := Decimal.readNearest? (String.ofList n.positional)

end Number

end FieldFilter.Json
