/-!
# Ordering comparisons

The four comparisons that a query may write in front of a value. A comparison is a set of
outcomes: `accepts` says which ones satisfy it.
-/

namespace FieldFilter

/-- An ordering comparison between a field's value and a literal. -/
inductive Comparison where
  /-- Strictly greater, written `>`. -/
  | above
  /-- Greater or equal, written `>=`. -/
  | atLeast
  /-- Strictly less, written `<`. -/
  | below
  /-- Less or equal, written `<=`. -/
  | atMost
  deriving DecidableEq, Repr

namespace Comparison

/-- The comparison as it is written in a query. -/
def symbol : Comparison → String
  | above => ">"
  | atLeast => ">="
  | below => "<"
  | atMost => "<="

/-- The name of the comparison. -/
def name : Comparison → String
  | above => "gt"
  | atLeast => "gte"
  | below => "lt"
  | atMost => "lte"

/-- All comparisons, in their usual order. -/
def all : List Comparison := [above, atLeast, below, atMost]

/-- Whether an outcome of comparing the field's value with the literal satisfies the comparison. -/
def accepts : Comparison → Ordering → Bool
  | above, o => o == .gt
  | atLeast, o => o != .lt
  | below, o => o == .lt
  | atMost, o => o != .gt

end Comparison

end FieldFilter
