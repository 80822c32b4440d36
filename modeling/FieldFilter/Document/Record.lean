import FieldFilter.Document.Schema
import FieldFilter.Document.Value
import FieldFilter.Record

/-!
# Records in documents

A record is an object that maps field names to values.
-/

namespace FieldFilter.Record

open Json Json.Reader

/-- A record as a document. -/
def document (r : Record) : List Lexeme := FieldMap.document r Value.document

/-- Read a record. -/
def read (levels : Nat) : Reader Record := FieldMap.read levels Value.read

/-- The record that a text describes. -/
def ofJson (text : String) : Except Fault Record := run read text

/-- The compact text of a record. -/
def toJson (r : Record) : String := Lexeme.spell (document r)

end FieldFilter.Record
