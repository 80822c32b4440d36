import FieldFilter.Token

/-!
# Syntax errors

The four ways in which a token list fails to be a query, and their wording.
-/

namespace FieldFilter

/-- Why a token list is not a query; each cause carries the byte offset at which it shows. -/
inductive SyntaxError where
  /-- A known token stands where only others could continue the query. -/
  | unexpectedToken (expected : List Token.Kind) (found : String) (offset : Nat)
  /-- Text of no token class stands where a token was needed. -/
  | unknownToken (lexeme : String) (offset : Nat)
  /-- A number is not an exact decimal. -/
  | invalidNumber (lexeme : String) (offset : Nat)
  /-- Parentheses and negations, or the connectives of the tree, nest deeper than allowed. -/
  | nestingTooDeep (limit : Nat) (offset : Nat)
  deriving DecidableEq, Repr

namespace SyntaxError

/-- The byte offset of the error in the query. -/
def offset : SyntaxError → Nat
  | unexpectedToken _ _ offset | unknownToken _ offset | invalidNumber _ offset
  | nestingTooDeep _ offset => offset

/-- A list of alternatives in words. -/
def alternatives (kinds : List Token.Kind) : String :=
  match kinds.map Token.Kind.description with
  | [] => "nothing"
  | [one] => one
  | first :: more =>
    ", ".intercalate (first :: more.dropLast) ++ " or " ++ more.getLastD first

/-- The wording of the error. -/
def message : SyntaxError → String
  | unexpectedToken expected found offset =>
    s!"expected {alternatives expected} at position {offset}, found {found}"
  | unknownToken lexeme offset => s!"unrecognized input '{lexeme}' at position {offset}"
  | invalidNumber lexeme offset => s!"invalid number '{lexeme}' at position {offset}"
  | nestingTooDeep limit offset => s!"nesting deeper than {limit} levels at position {offset}"

end SyntaxError

end FieldFilter
