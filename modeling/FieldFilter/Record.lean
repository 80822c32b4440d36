import FieldFilter.FieldMap
import FieldFilter.Predicate

/-!
# Records

A record holds the values of one candidate by field. It answers the checks of a predicate; a field
that is missing or holds a value of another kind passes none of them.
-/

namespace FieldFilter

/-- The values of one candidate. -/
abbrev Record := FieldMap Value

namespace Test

/-- Whether a value passes a test. -/
def holds (t : Test) (actual : Value) : Bool :=
  match t with
  | equals v => actual.sameAs v
  | within r => r.contains actual
  | fits p => actual.text?.any p.accepts
  | compares op v => (actual.compare? v).any op.accepts

end Test

namespace Record

/-- The answer of a record to a check. -/
def answer (r : Record) (c : Check) : Bool := (r.find? c.field).any c.test.holds

end Record

/-- Whether a predicate accepts a record. -/
def Predicate.accepts (p : Predicate) (r : Record) : Bool := p.eval (Record.answer r)

end FieldFilter
