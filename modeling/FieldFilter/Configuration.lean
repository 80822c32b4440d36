import FieldFilter.Document.Limits
import FieldFilter.Document.Schema

/-!
# Configurations

A configuration holds the searchable fields of a host and the limits of its queries. It is read
from a document or from the bytes of a file, and limits that would refuse every query are refused.
-/

namespace FieldFilter

open Json Json.Reader

/-- The limits and the fields of a host. -/
structure Configuration where
  limits : Limits
  schema : Schema
  deriving DecidableEq

/-- Why a configuration makes no sense. -/
inductive ConfigurationError where
  | zeroQueryLength
  | zeroDepth
  deriving DecidableEq, Repr

/-- The wording of the error. -/
def ConfigurationError.message : ConfigurationError → String
  | zeroQueryLength => "max_query_len must be positive"
  | zeroDepth => "max_depth must be positive"

/-- Why a host is not served. -/
inductive HostError where
  /-- There is no file of the given name. -/
  | fileMissing
  /-- The bytes of the file are not UTF-8. -/
  | fileNotText
  /-- The text does not describe what is asked for. -/
  | document (fault : Fault)
  | configuration (error : ConfigurationError)
  | query (error : CompileError)
  deriving DecidableEq, Repr

/-- The wording of the error. Faults of files and documents have no wording of their own. -/
def HostError.message? : HostError → Option String
  | fileMissing | fileNotText | document _ => none
  | configuration e => some ("configuration error: " ++ e.message)
  | query e => some ("query error: " ++ e.message)

namespace Configuration

/-- The members of a configuration. -/
def memberNames : List String := ["options", "fields"]

/-- A configuration as a document. -/
def document (c : Configuration) : List Lexeme :=
  Writer.object [("options", c.limits.document), ("fields", Schema.document c.schema)]

/-- The compact text of a configuration. -/
def toJson (c : Configuration) : String := Lexeme.spell c.document

/-- Read a member of a configuration. -/
def readMember (levels : Nat) (state : Option Limits × Option Schema) (name : String) :
    Reader (Option Limits × Option Schema) := do
  if name = "options" then return (← memberValue name state.1 (Limits.read levels), state.2)
  else if name = "fields" then return (state.1, ← memberValue name state.2 (Schema.read levels))
  else refuse (.unknownField name memberNames)

/-- Read a configuration, whose limits may be left out. -/
def read (levels : Nat) : Reader Configuration :=
  structured levels
    (fun levels => do
      let (limits, schema) ← members (readMember levels) (none, none)
      return ⟨limits.getD .default, ← require "fields" schema⟩)
    (fun levels => do
      let limits ← element? true (Limits.read levels)
      return ⟨limits.getD .default, ← element false (Schema.read levels)⟩)

/-- Refuse limits under which no query is accepted. -/
def validate (c : Configuration) : Except ConfigurationError Unit :=
  if c.limits.maxQueryLength = 0 then .error .zeroQueryLength
  else if c.limits.maxDepth = 0 then .error .zeroDepth
  else .ok ()

/-- The configuration that a text describes, if it makes sense. -/
def ofJson (text : String) : Except HostError Configuration :=
  match run read text with
  | .error fault => .error (.document fault)
  | .ok c =>
    match c.validate with
    | .error e => .error (.configuration e)
    | .ok () => .ok c

/-- The configuration that the bytes of a file describe; without bytes the file is missing. -/
def ofFile (bytes : Option ByteArray) : Except HostError Configuration :=
  match bytes with
  | none => .error .fileMissing
  | some bytes =>
    match String.fromUTF8? bytes with
    | none => .error .fileNotText
    | some text => ofJson text

end Configuration

end FieldFilter
