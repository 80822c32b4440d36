import FieldFilter.Query.Parser
import FieldFilter.Resolution
import FieldFilter.Text.Blank

/-!
# From text to a predicate

Compiling takes a query text through tokens and tree to a predicate, under limits on its length
and depth. A blank text accepts everything, whatever the limits and the schema.
-/

namespace FieldFilter

/-- The limits under which queries are compiled. -/
structure Limits where
  /-- The longest query that is accepted, in bytes. -/
  maxQueryLength : Nat
  /-- The deepest nesting and the tallest tree that are accepted. -/
  maxDepth : Nat
  deriving DecidableEq, Repr

namespace Limits

/-- The limits that apply when none are chosen. -/
def default : Limits := ⟨500, Query.defaultMaxDepth⟩

end Limits

/-- Why a query text is not compiled. -/
inductive CompileError where
  /-- Text of no token class. -/
  | unknownToken (lexeme : String) (offset : Nat)
  /-- The tokens are not a query, for another reason than an unknown token. -/
  | malformed (error : SyntaxError)
  /-- The schema refuses a condition. -/
  | invalid (error : ValidationError)
  /-- The text has more bytes than allowed. -/
  | tooLong (length limit : Nat)
  deriving DecidableEq, Repr

namespace CompileError

/-- A syntax error as a compile error; unknown tokens are told apart. -/
def ofSyntaxError : SyntaxError → CompileError
  | .unknownToken lexeme offset => unknownToken lexeme offset
  | e => malformed e

/-- The byte offset of the error in the query, if it has one. -/
def offset? : CompileError → Option Nat
  | unknownToken _ offset => some offset
  | malformed e => some e.offset
  | invalid _ | tooLong _ _ => none

/-- The field that is at fault, if it is one. -/
def field? : CompileError → Option String
  | invalid e => some e.field
  | _ => none

/-- The wording of the error. -/
def message : CompileError → String
  | unknownToken lexeme offset => (SyntaxError.unknownToken lexeme offset).message
  | malformed e => "syntax error: " ++ e.message
  | invalid e => e.message
  | tooLong length limit => s!"query is {length} bytes long, limit is {limit}"

end CompileError

/-- The predicate of a query text, under limits and against a schema. -/
def compile (limits : Limits) (schema : Schema) (text : String) :
    Except CompileError Predicate :=
  if isBlank text then .ok (.always true)
  else if limits.maxQueryLength < text.utf8ByteSize then
    .error (.tooLong text.utf8ByteSize limits.maxQueryLength)
  else
    match Query.parse limits.maxDepth text with
    | .error e => .error (.ofSyntaxError e)
    | .ok query =>
      match Schema.resolve schema query with
      | .error e => .error (.invalid e)
      | .ok predicate => .ok predicate

end FieldFilter
