import FieldFilter.Text.Lowercase

/-!
# Text patterns

A pattern is a text together with the way it is matched. Four ways look at the text as it stands,
by equality, occurrence, beginning and end; the last three also exist in a form that lower-cases
pattern and candidate first.
-/

namespace FieldFilter

/-- How a pattern is matched against a text. -/
inductive MatchStyle where
  /-- The whole text equals the pattern. -/
  | exact
  /-- The pattern occurs anywhere in the text. -/
  | contains
  /-- Like `contains`, without regard to case. -/
  | containsIgnoreCase
  /-- The text begins with the pattern. -/
  | startsWith
  /-- Like `startsWith`, without regard to case. -/
  | startsWithIgnoreCase
  /-- The text ends with the pattern. -/
  | endsWith
  /-- Like `endsWith`, without regard to case. -/
  | endsWithIgnoreCase
  deriving DecidableEq, Repr

namespace MatchStyle

/-- The style of a text field that names none. -/
def default : MatchStyle := containsIgnoreCase

/-- The name of a style. -/
def name : MatchStyle → String
  | exact => "exact"
  | contains => "contains"
  | containsIgnoreCase => "contains_ignore_case"
  | startsWith => "prefix"
  | startsWithIgnoreCase => "prefix_ignore_case"
  | endsWith => "suffix"
  | endsWithIgnoreCase => "suffix_ignore_case"

/-- All styles, in their usual order. -/
def all : List MatchStyle :=
  [exact, contains, containsIgnoreCase, startsWith, startsWithIgnoreCase, endsWith,
    endsWithIgnoreCase]

end MatchStyle

/-- Whether a run of characters occurs in a text. -/
def occursIn (sought : List Char) : List Char → Bool
  | [] => sought.isEmpty
  | c :: cs => sought.isPrefixOf (c :: cs) || occursIn sought cs

/-- A text and the way it is matched. -/
structure Pattern where
  text : String
  style : MatchStyle
  deriving DecidableEq, Repr

namespace Pattern

/-- Whether a candidate text matches the pattern. -/
def accepts (p : Pattern) (candidate : String) : Bool :=
  let sought := p.text.toList
  let cs := candidate.toList
  match p.style with
  | .exact => candidate == p.text
  | .contains => occursIn sought cs
  | .containsIgnoreCase => occursIn (lowercase sought) (lowercase cs)
  | .startsWith => sought.isPrefixOf cs
  | .startsWithIgnoreCase => (lowercase sought).isPrefixOf (lowercase cs)
  | .endsWith => sought.isSuffixOf cs
  | .endsWithIgnoreCase => (lowercase sought).isSuffixOf (lowercase cs)

/-- The style and the quoted text of the pattern. -/
def toString (p : Pattern) : String := "~" ++ p.style.name ++ " \"" ++ p.text ++ "\""

end Pattern

end FieldFilter
