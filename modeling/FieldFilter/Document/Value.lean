import FieldFilter.Json.Reader
import FieldFilter.Json.Writer
import FieldFilter.Value

/-!
# Values in documents

A value is an object of two members, `type` and `value`, or the array of the two. Numbers are
written as text, which keeps their scale, and read from text or from a number. The members may come
in any order: a `value` ahead of its `type` is kept until the type says what it has to be.
-/

namespace FieldFilter

open Json Json.Reader

namespace Value

/-- The four forms of a value, as their `type` names them. -/
inductive Tag where
  | identifier
  | number
  | boolean
  | quoted
  deriving DecidableEq, Repr

/-- The names of the forms. -/
def tags : List (String × Tag) :=
  [("identifier", .identifier), ("number", .number), ("boolean", .boolean),
    ("quoted_string", .quoted)]

/-- A value as a document. -/
def document : Value → List Lexeme
  | identifier s => tagged "identifier" (.text s)
  | number d => tagged "number" (.text d.toString)
  | boolean b => tagged "boolean" (.boolean b)
  | quoted s => tagged "quoted_string" (.text s)
where
  tagged (tag : String) (content : Lexeme) : List Lexeme :=
    Writer.object [("type", [.text tag]), ("value", [content])]

/-- A number value, if there is a decimal for it. -/
def ofDecimal? : Option Decimal → Reader Value
  | some d => pure (number d)
  | none => refuse .wrongType

/-- Read the content of a number value: a number, or a text that spells one. -/
def readNumber (levels : Nat) : Reader Value := do
  match ← next with
  | .sound (.number n) => ofDecimal? n.decimal?
  | .sound (.text s) => ofDecimal? (Decimal.readLenient? s)
  | .sound .beginObject | .sound .beginArray =>
    if levels = 0 then fail .malformed else refuse .wrongType
  | p => wrongType p

/-- Read the content of a value of known form. -/
def readContent (levels : Nat) : Tag → Reader Value
  | .identifier => return identifier (← text)
  | .number => readNumber levels
  | .boolean => return boolean (← Reader.boolean)
  | .quoted => return quoted (← text)

/-- The content of a value of unknown form. -/
inductive Content where
  | text (s : String)
  | number (n : Json.Number)
  | boolean (b : Bool)
  /-- Content that no form takes. -/
  | other
  deriving DecidableEq, Repr

/-- Read the content of a value of unknown form. -/
def readAny (levels : Nat) : Reader Content := do
  match ← next with
  | .sound (.text s) => return .text s
  | .sound (.number n) => return .number n
  | .sound (.boolean b) => return .boolean b
  | .sound .null => return .other
  | .sound .beginObject =>
    match levels with
    | 0 => fail .malformed
    | levels + 1 =>
      members (fun _ _ => do
        expect .colon
        let _ ← readAny levels) ()
      return .other
  | .sound .beginArray =>
    match levels with
    | 0 => fail .malformed
    | levels + 1 =>
      elements do
        let _ ← readAny levels
      return .other
  | p => wrongType p

/-- The value that content of a known form is. -/
def ofContent : Tag → Content → Reader Value
  | .identifier, .text s => pure (identifier s)
  | .quoted, .text s => pure (quoted s)
  | .boolean, .boolean b => pure (boolean b)
  | .number, .number n => ofDecimal? n.decimal?
  | .number, .text s => ofDecimal? (Decimal.readLenient? s)
  | _, _ => refuse .wrongType

/-- How much of a value has been read. -/
inductive Progress where
  | nothing
  | tag (t : Tag)
  | content (c : Content)
  | whole (v : Value)
  deriving DecidableEq, Repr

/-- Read a member of a value; members of other names are passed over. -/
def readMember (levels : Nat) (state : Progress) (name : String) : Reader Progress := do
  if name = "type" then
    match state with
    | .nothing =>
      expect .colon
      return .tag (← choice levels tags)
    | .content c =>
      expect .colon
      return .whole (← ofContent (← choice levels tags) c)
    | .tag _ | .whole _ => refuse (.duplicateField "type")
  else if name = "value" then
    match state with
    | .nothing =>
      expect .colon
      return .content (← readAny levels)
    | .tag t =>
      expect .colon
      return .whole (← readContent levels t)
    | .content _ | .whole _ => refuse (.duplicateField "value")
  else
    expect .colon
    skip
    return state

/-- Read a value. -/
def read (levels : Nat) : Reader Value :=
  structured levels
    (fun levels => do
      match ← members (readMember levels) .nothing with
      | .whole v => return v
      | .tag _ => refuse (.missingField "value")
      | .nothing | .content _ => refuse (.missingField "type"))
    (fun levels => do
      let tag ← element true (plainChoice tags)
      element false (readContent levels tag))

end Value

namespace Range

/-- A range as a document. -/
def document (r : Range) : List Lexeme :=
  Writer.object [("lower", r.lower.document), ("upper", r.upper.document)]

/-- Read a member of a range; members of other names are passed over. -/
def readMember (levels : Nat) (state : Option Value × Option Value) (name : String) :
    Reader (Option Value × Option Value) := do
  if name = "lower" then return (← memberValue name state.1 (Value.read levels), state.2)
  else if name = "upper" then return (state.1, ← memberValue name state.2 (Value.read levels))
  else
    expect .colon
    skip
    return state

/-- Read a range. -/
def read (levels : Nat) : Reader Range :=
  structured levels
    (fun levels => do
      let (lower, upper) ← members (readMember levels) (none, none)
      return ⟨← require "lower" lower, ← require "upper" upper⟩)
    (fun levels => do
      let lower ← element true (Value.read levels)
      return ⟨lower, ← element false (Value.read levels)⟩)

end Range

end FieldFilter
