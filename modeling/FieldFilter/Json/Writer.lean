import FieldFilter.Json.Lexeme

/-!
# Writing documents

Objects and arrays as rows of lexemes, from the rows of their parts.
-/

namespace FieldFilter.Json.Writer

/-- Rows with commas between them. -/
def separate : List (List Lexeme) → List Lexeme
  | [] => []
  | [row] => row
  | row :: rows => row ++ .comma :: separate rows

/-- A member of an object. -/
def member (name : String) (value : List Lexeme) : List Lexeme := .text name :: .colon :: value

/-- An object of named values, in the given order. -/
def object (members : List (String × List Lexeme)) : List Lexeme :=
  .beginObject :: separate (members.map fun (name, value) => member name value) ++ [.endObject]

/-- An array of values. -/
def array (values : List (List Lexeme)) : List Lexeme :=
  .beginArray :: separate values ++ [.endArray]

end FieldFilter.Json.Writer
