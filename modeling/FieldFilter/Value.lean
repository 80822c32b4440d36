import FieldFilter.Decimal

/-!
# Values

A value is text, a number or a truth value. Text comes in two spellings, a bare identifier and
quoted text, that are different values of one kind with the same order. Values of one kind are
totally ordered; values of different kinds are not comparable at all.
-/

namespace FieldFilter

/-- The right-hand side of a condition, or what a record stores under a field. -/
inductive Value where
  /-- A bare word. -/
  | identifier (text : String)
  /-- An exact decimal. -/
  | number (value : Decimal)
  | boolean (value : Bool)
  /-- Text between double quotes, without them. -/
  | quoted (text : String)
  deriving DecidableEq, Repr

namespace Value

/-- What a value is, as a field declares it. -/
inductive Kind where
  | text
  | number
  | boolean
  deriving DecidableEq, Repr

/-- The name of a kind. -/
def Kind.name : Kind → String
  | text => "text"
  | number => "number"
  | boolean => "boolean"

/-- All kinds, in their usual order. -/
def Kind.all : List Kind := [text, number, boolean]

/-- The kind of a value; both spellings of text are of one kind. -/
def kind : Value → Kind
  | identifier _ | quoted _ => .text
  | number _ => .number
  | boolean _ => .boolean

/-- The content of a text value. -/
def text? : Value → Option String
  | identifier s | quoted s => some s
  | _ => none

/-- The decimal of a number value. -/
def number? : Value → Option Decimal
  | number d => some d
  | _ => none

/-- The truth value of a boolean value. -/
def boolean? : Value → Option Bool
  | boolean b => some b
  | _ => none

/-- The order of two values of one kind: numbers by size, text by content and code point, false
before true. Values of different kinds have none. -/
def compare? (a b : Value) : Option Ordering :=
  match a, b with
  | number a, number b => some (a.compare b)
  | boolean a, boolean b => some (compare a b)
  | a, b =>
    match a.text?, b.text? with
    | some s, some t => some (compare s t)
    | _, _ => none

/-- Equality of kind and content: the spelling of text and the scale of a number do not count. -/
def sameAs (a b : Value) : Bool := a.compare? b == some .eq

/-- Equality as written, except that the scale of a number does not count. -/
def alike : Value → Value → Bool
  | identifier s, identifier t => s == t
  | number a, number b => a.compare b == .eq
  | boolean a, boolean b => a == b
  | quoted s, quoted t => s == t
  | _, _ => false

/-- A value as text; quoted text stands in quotes, and nothing inside it is escaped. -/
def toString : Value → String
  | identifier s => s
  | number d => d.toString
  | boolean b => if b then "true" else "false"
  | quoted s => "\"" ++ s ++ "\""

end Value

/-- A pair of bounds, kept as written: the lower bound may exceed the upper one. -/
structure Range where
  lower : Value
  upper : Value
  deriving DecidableEq, Repr

namespace Range

/-- Whether a value lies between the bounds, both included. -/
def contains (r : Range) (v : Value) : Bool :=
  (r.lower.compare? v).any (· != .gt) && (v.compare? r.upper).any (· != .gt)

/-- Equality as written, except that the scales of numbers do not count. -/
def alike (r s : Range) : Bool := r.lower.alike s.lower && r.upper.alike s.upper

/-- A range as text. -/
def toString (r : Range) : String := r.lower.toString ++ ".." ++ r.upper.toString

end Range

end FieldFilter
