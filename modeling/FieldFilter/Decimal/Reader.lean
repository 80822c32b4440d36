import FieldFilter.Decimal

/-!
# Reading decimals

A numeral is an optional sign, digits with at most one point among them, and underscores anywhere
after the first digit. The exact reading refuses a numeral that does not fit a decimal. The
nearest reading rounds off the fractional digits that do not fit, half away from zero, but still
refuses a whole part that is too large. The scientific reading adds a power of ten.

The zero that a numeral spells has no sign, whatever the numeral. A minus zero comes about in one
way only: the scientific reading of a negative numeral that is shifted down until nothing is left.
-/

namespace FieldFilter.Decimal

/-- What becomes of fractional digits that do not fit. -/
inductive Excess where
  | refused
  | rounded
  deriving DecidableEq, Repr

/-- A numeral read so far. -/
structure Progress where
  magnitude : Nat
  /-- The number of digits taken after the point. -/
  places : Nat
  /-- Whether the point has been seen. -/
  pointed : Bool
  /-- Whether a digit has been seen. -/
  started : Bool
  deriving DecidableEq, Repr

/-- The characters that may be dropped: digits and underscores. -/
def isDroppable (c : Char) : Bool := c.isDigit || c == '_'

/-- The first magnitude, less its last digit, that is wide: close below a tenth of 2^64. -/
def wideBound : Nat := 1844674407370954906

/-- Whether dropped characters round up, which the first of them decides by being a five or more.
Behind a wide magnitude the underscores in front of it are passed over; behind any other, an
underscore in its place counts as a zero. -/
def Progress.roundsUp (p : Progress) (dropped : List Char) : Bool :=
  let rest := if wideBound ≤ p.magnitude / 10 then dropped.dropWhile (· == '_') else dropped
  (rest.head?.bind digit?).any (5 ≤ ·)

/-- Close a numeral whose remaining characters are dropped. If rounding up overflows the magnitude,
one place less is kept. -/
def Progress.round (p : Progress) (dropped : List Char) : Option (Nat × Nat) :=
  if dropped.all isDroppable then
    let magnitude := if p.roundsUp dropped then p.magnitude + 1 else p.magnitude
    if magnitude < magnitudeBound then some (magnitude, p.places)
    else if p.places = 0 then none
    else some ((magnitude + 4) / 10, p.places - 1)
  else none

/-- Close a numeral whose remaining characters do not fit. -/
def Progress.spill (p : Progress) : Excess → List Char → Option (Nat × Nat)
  | .refused, _ => none
  | .rounded, dropped => p.round dropped

/-- The numeral after one more digit. -/
def Progress.push (p : Progress) (value : Nat) : Progress :=
  { p with
    magnitude := 10 * p.magnitude + value
    places := if p.pointed then p.places + 1 else p.places
    started := true }

/-- Read the rest of an unsigned numeral into a magnitude and a scale. -/
def readUnsigned (excess : Excess) (p : Progress) : List Char → Option (Nat × Nat)
  | [] => if p.started then some (p.magnitude, p.places) else none
  | c :: cs =>
    if p.places = maxScale then p.spill excess (c :: cs)
    else
      match digit? c with
      | some value =>
        if 10 * p.magnitude + value < magnitudeBound then readUnsigned excess (p.push value) cs
        else if p.pointed then p.spill excess (c :: cs)
        else none
      | none =>
        if c == '.' && !p.pointed then readUnsigned excess { p with pointed := true } cs
        else if c == '_' && p.started then readUnsigned excess p cs
        else none

/-- Read a numeral behind its sign. -/
def readBody (excess : Excess) (negative : Bool) (cs : List Char) : Option Decimal := do
  let (magnitude, scale) ← readUnsigned excess ⟨0, 0, false, false⟩ cs
  ofParts? (negative && magnitude != 0) magnitude scale

/-- Read a numeral with an optional sign. -/
def readSigned (excess : Excess) : List Char → Option Decimal
  | '-' :: cs => readBody excess true cs
  | '+' :: cs => readBody excess false cs
  | cs => readBody excess false cs

/-- The decimal that a numeral spells exactly. -/
def readExact? (text : String) : Option Decimal := readSigned .refused text.toList

/-- The decimal nearest to a numeral, halves going away from zero. -/
def readNearest? (text : String) : Option Decimal := readSigned .rounded text.toList

/-- An unsigned whole number in digits, with an optional plus sign. -/
def readWhole? (cs : List Char) : Option Nat :=
  let body := match cs with
    | '+' :: cs => cs
    | cs => cs
  if body.isEmpty || !body.all Char.isDigit then none else some (ofDigits body)

/-- Divide a magnitude by a power of ten, halves going away from zero. -/
def roundPlaces (magnitude places : Nat) : Nat :=
  (2 * magnitude + tenPow places) / (2 * tenPow places)

/-- The decimal shifted by `places` to the right of the point: its scale grows, and what does not
fit 28 places is rounded off, halves going away from zero. The sign stays, even if nothing else
does. -/
def shiftDown (d : Decimal) (places : Nat) : Option Decimal :=
  let excess := d.scale + places - maxScale
  ofParts? d.negative (roundPlaces d.magnitude excess) (d.scale + places - excess)

/-- The decimal shifted by `places` to the left of the point: its scale shrinks as far as it goes,
and the magnitude grows by the rest. -/
def shiftUp (d : Decimal) (places : Nat) : Option Decimal :=
  ofParts? d.negative (d.magnitude * tenPow (places - d.scale)) (d.scale - places)

/-- Read a numeral followed by `e` or `E` and an exponent of at most 28. -/
def readScientific? (text : String) : Option Decimal :=
  let cs := text.toList
  let isMark := fun c : Char => c == 'e' || c == 'E'
  match cs.dropWhile (!isMark ·) with
  | [] => none
  | _ :: exponent => do
    let base ← readSigned .rounded (cs.takeWhile (!isMark ·))
    match exponent with
    | '-' :: exponent => do
      let places ← readWhole? exponent
      if places ≤ maxScale then base.shiftDown places else none
    | exponent => do
      let places ← readWhole? exponent
      if places ≤ maxScale then base.shiftUp places else none

/-- The decimal that a text denotes when texts need not be exact: its nearest reading, or else its
scientific one. -/
def readLenient? (text : String) : Option Decimal :=
  readNearest? text <|> readScientific? text

end FieldFilter.Decimal
