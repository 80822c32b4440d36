import FieldFilter.Comparison
import FieldFilter.Connective
import FieldFilter.Text.Utf8

/-!
# Tokens of a query

A token is a classified stretch of query text together with the byte offset at which it starts.
Text that belongs to no class is a token too, of kind `unknown`, so that a list of tokens can
describe any text.
-/

namespace FieldFilter

/-- The class of a token. -/
inductive Token.Kind where
  | colon
  | leftParen
  | rightParen
  /-- The two dots between the bounds of a range. -/
  | dots
  | comparison (op : Comparison)
  | connective (c : Connective)
  | not
  | identifier
  | number
  | boolean
  /-- Text between double quotes. -/
  | quoted
  | endOfInput
  /-- Text that belongs to no other class. -/
  | unknown
  deriving DecidableEq, Repr

/-- A classified stretch of query text. -/
structure Token where
  kind : Token.Kind
  /-- The text of the token; for quoted text, what stands between the quotes. -/
  text : String
  /-- The byte offset of the token's first character; for quoted text, of the opening quote. -/
  offset : Nat
  deriving DecidableEq, Repr

namespace Token

namespace Kind

/-- Whether a token of this kind spells a literal value. -/
def isValue : Kind → Bool
  | identifier | number | boolean => true
  | _ => false

/-- The kind as error messages name it. -/
def description : Kind → String
  | colon => "':'"
  | leftParen => "'('"
  | rightParen => "')'"
  | dots => "'..'"
  | comparison op => "'" ++ op.symbol ++ "'"
  | connective c => "'" ++ c.keyword ++ "'"
  | not => "'NOT'"
  | identifier => "identifier"
  | number => "number"
  | boolean => "boolean"
  | quoted => "quoted string"
  | endOfInput => "end of input"
  | unknown => "unknown"

end Kind

/-- The end-of-input token at an offset. -/
def endAt (offset : Nat) : Token := ⟨.endOfInput, "", offset⟩

/-- The token as error messages name it. -/
def description (t : Token) : String :=
  match t.kind with
  | .endOfInput => t.kind.description
  | .quoted => "\"" ++ t.text ++ "\""
  | _ => "'" ++ t.text ++ "'"

/-- The characters that the token covers in its query: its text, and the quotes around it. -/
def span (t : Token) : List Char :=
  match t.kind with
  | .quoted => '"' :: t.text.toList ++ ['"']
  | _ => t.text.toList

/-- The byte offset just after the token's text, counted from the token's own offset. Offsets have
64 bits, and behind the last one counting starts over at zero. -/
def textEnd (t : Token) : Nat := (t.offset + t.text.utf8ByteSize) % UInt64.size

end Token

end FieldFilter
