import FieldFilter.Comparison
import FieldFilter.Connective
import FieldFilter.Value

/-!
# Query trees

A query is a tree of connectives over conditions on single fields. Parentheses shape the tree and
leave no node of their own. Beside the type stand the measures by which the rest of the library
talks about it: the leaves in source order, the height, and the fields that are mentioned.
-/

namespace FieldFilter

/-- What a query asks of one field. -/
inductive Condition where
  /-- The field has this value, written `field:value`. -/
  | equals (value : Value)
  /-- The field lies within these bounds, written `field:lower..upper`. -/
  | within (range : Range)
  /-- The field matches quoted text, written `field:"text"`. -/
  | quoted (text : String)
  /-- The field compares so with a value, written `field:>value` and the like. -/
  | compares (op : Comparison) (value : Value)
  deriving DecidableEq, Repr

/-- Equality as written, except that the scales of numbers do not count. -/
def Condition.alike : Condition → Condition → Bool
  | equals v, equals w => v.alike w
  | within r, within s => r.alike s
  | quoted t, quoted u => t == u
  | compares op v, compares op' w => op == op' && v.alike w
  | _, _ => false

/-- A parsed query. -/
inductive Query where
  | leaf (field : String) (condition : Condition)
  | join (connective : Connective) (left right : Query)
  | not (operand : Query)
  deriving DecidableEq, Repr

namespace Query

/-- The field of a single condition. -/
def field? : Query → Option String
  | leaf field _ => some field
  | _ => none

/-- The conditions with their fields, from left to right. -/
def leaves : Query → List (String × Condition)
  | leaf field condition => [(field, condition)]
  | join _ left right => left.leaves ++ right.leaves
  | not operand => operand.leaves

/-- The number of conditions. -/
def leafCount : Query → Nat
  | leaf _ _ => 1
  | join _ left right => left.leafCount + right.leafCount
  | not operand => operand.leafCount

/-- The longest way from the root to a condition, which has height zero. -/
def height : Query → Nat
  | leaf _ _ => 0
  | join _ left right => max left.height right.height + 1
  | not operand => operand.height + 1

/-- The fields found so far, followed by those of a query that are not among them. -/
def addFields (seen : List String) : Query → List String
  | leaf field _ => if seen.contains field then seen else seen ++ [field]
  | join _ left right => right.addFields (left.addFields seen)
  | not operand => operand.addFields seen

/-- The distinct fields of a query, in the order of their first mention. -/
def fields (q : Query) : List String := q.addFields []

/-- Whether a query mentions a field. -/
def references (q : Query) (field : String) : Bool :=
  match q with
  | leaf name _ => name == field
  | join _ left right => left.references field || right.references field
  | not operand => operand.references field

/-- Equality as written, except that the scales of numbers do not count. -/
def alike : Query → Query → Bool
  | leaf f c, leaf f' c' => f == f' && c.alike c'
  | join c l r, join c' l' r' => c == c' && l.alike l' && r.alike r'
  | not q, not q' => q.alike q'
  | _, _ => false

end Query

end FieldFilter
