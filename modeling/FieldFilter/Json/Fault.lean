/-!
# Why a document is not read

A document can end too early, can break the grammar of JSON, or can be well formed so far and yet
not describe what is asked for. Reading stops at the first of these in the order of the text.
-/

namespace FieldFilter.Json

/-- Why a well-formed document does not describe what is asked for. -/
inductive Mismatch where
  | missingField (name : String)
  | duplicateField (name : String)
  | unknownField (name : String) (expected : List String)
  /-- A name that is none of the alternatives. -/
  | unknownVariant (name : String) (expected : List String)
  /-- A value that is refused, in the words of what refused it. -/
  | rejected (message : String)
  /-- A value of another type or out of range. -/
  | wrongType
  deriving DecidableEq, Repr

/-- Why a document is not read. -/
inductive Fault where
  /-- The text ends too early. -/
  | ended
  /-- The text breaks the grammar. -/
  | malformed
  /-- The text is well formed so far but does not describe what is asked for. -/
  | mismatch (cause : Mismatch)
  deriving DecidableEq, Repr

namespace Mismatch

/-- A name as messages show it. -/
def quote (name : String) : String := "`" ++ name ++ "`"

/-- The names that were expected, in words. -/
def expectation : List String → String
  | [] => "there are none"
  | [a] => "expected " ++ quote a
  | [a, b] => "expected " ++ quote a ++ " or " ++ quote b
  | names => "expected one of " ++ ", ".intercalate (names.map quote)

/-- The wording of a mismatch; values of another type have no wording of their own. -/
def message? : Mismatch → Option String
  | missingField name => some ("missing field " ++ quote name)
  | duplicateField name => some ("duplicate field " ++ quote name)
  | unknownField name expected =>
    some ("unknown field " ++ quote name ++ ", " ++ expectation expected)
  | unknownVariant name expected =>
    some ("unknown variant " ++ quote name ++ ", " ++ expectation expected)
  | rejected message => some message
  | wrongType => none

end Mismatch

end FieldFilter.Json
