import FieldFilter.Query

/-!
# Canonical query text

The text of a query tree. An operand stands in parentheses exactly where its top connective binds
less tightly than its place asks for: the right side of a connective asks for more than the left,
because chains of one connective group to the left.
-/

namespace FieldFilter

/-- What follows the colon of a condition. -/
def Condition.toString : Condition → String
  | equals v => v.toString
  | within r => r.toString
  | quoted t => "\"" ++ t ++ "\""
  | compares op v => op.symbol ++ v.toString

namespace Query

/-- How tightly the top of a query holds together; conditions and negations hold tightest. -/
def precedence : Query → Nat
  | join c _ _ => c.precedence
  | _ => 3

/-- A text in parentheses if it is needed. -/
def parenthesizeIf (needed : Bool) (text : String) : String :=
  if needed then "(" ++ text ++ ")" else text

/-- The canonical text of a query. -/
def toString : Query → String
  | leaf field condition => field ++ ":" ++ condition.toString
  | join c left right =>
    parenthesizeIf (left.precedence < c.precedence) left.toString
      ++ " " ++ c.keyword ++ " "
      ++ parenthesizeIf (right.precedence < c.precedence + 1) right.toString
  | not operand => "NOT " ++ parenthesizeIf (operand.precedence < 3) operand.toString

end Query

end FieldFilter
