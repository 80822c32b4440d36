import FieldFilter.FieldMap
import FieldFilter.Pattern
import FieldFilter.Value

/-!
# Schemas

A schema says of every field that a query may mention which kind of value it holds and which
comparisons it supports beyond equality.
-/

namespace FieldFilter

/-- The comparisons that a field supports beyond equality. -/
inductive ComparisonStyle where
  /-- None. -/
  | equality
  /-- Ranges and ordering comparisons. -/
  | range
  /-- Quoted patterns, matched in the given style. -/
  | textPattern (style : MatchStyle)
  deriving DecidableEq, Repr

/-- The name of a comparison style. -/
def ComparisonStyle.name : ComparisonStyle → String
  | equality => "equality"
  | range => "range"
  | textPattern _ => "text pattern"

/-- The declared kind and comparisons of a field. -/
structure FieldSpec where
  kind : Value.Kind
  style : ComparisonStyle
  deriving DecidableEq, Repr

namespace FieldSpec

/-- Whether ranges and ordering comparisons are supported. -/
def supportsRange (s : FieldSpec) : Bool := s.style == .range

/-- The style in which quoted patterns are matched, if they are supported. -/
def matchStyle? (s : FieldSpec) : Option MatchStyle :=
  match s.style with
  | .textPattern style => some style
  | _ => none

/-- A field specification is sound when only text fields support quoted patterns. -/
def isSound (s : FieldSpec) : Bool := s.matchStyle?.isNone || s.kind == .text

end FieldSpec

/-- The fields that queries may mention. -/
abbrev Schema := FieldMap FieldSpec

end FieldFilter
