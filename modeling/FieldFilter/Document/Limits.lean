import FieldFilter.Compilation
import FieldFilter.Json.Reader
import FieldFilter.Json.Writer

/-!
# Limits in documents

The limits are an object of two members, either of which may be left out for its default.
-/

namespace FieldFilter.Limits

open Json Json.Reader

/-- The members of the limits. -/
def memberNames : List String := ["max_query_len", "max_depth"]

/-- The limits as a document. -/
def document (l : Limits) : List Lexeme :=
  Writer.object
    [("max_query_len", [.number (.natural l.maxQueryLength)]),
      ("max_depth", [.number (.natural l.maxDepth)])]

/-- Read a member of the limits. -/
def readMember (state : Option Nat × Option Nat) (name : String) :
    Reader (Option Nat × Option Nat) := do
  if name = "max_query_len" then return (← memberValue name state.1 natural, state.2)
  else if name = "max_depth" then return (state.1, ← memberValue name state.2 natural)
  else refuse (.unknownField name memberNames)

/-- The limits with defaults in place of what is left out. -/
def ofParts (maxQueryLength maxDepth : Option Nat) : Limits :=
  ⟨maxQueryLength.getD default.maxQueryLength, maxDepth.getD default.maxDepth⟩

/-- Read limits. -/
def read (levels : Nat) : Reader Limits :=
  structured levels
    (fun _ => do
      let (maxQueryLength, maxDepth) ← members readMember (none, none)
      return ofParts maxQueryLength maxDepth)
    (fun _ => do
      let maxQueryLength ← element? true natural
      return ofParts maxQueryLength (← element? false natural))

/-- The limits that a text describes. -/
def ofJson (text : String) : Except Fault Limits := run read text

end FieldFilter.Limits
