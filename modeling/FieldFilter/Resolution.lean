import FieldFilter.Predicate
import FieldFilter.Query
import FieldFilter.Schema

/-!
# From a query to a predicate

A query is resolved against a schema: every condition must be on a known field, in a form that the
field supports, with values of the declared kind, which are never converted. The checks come in
that order, conditions from left to right, and the first failure is the answer. Resolution keeps
the shape of the query and all its values, and pairs quoted text with the style of its field.
-/

namespace FieldFilter

/-- The forms of condition that not every field supports. -/
inductive ConditionForm where
  | range
  | pattern
  | ordering
  deriving DecidableEq, Repr

/-- The name of a form. -/
def ConditionForm.name : ConditionForm → String
  | range => "range"
  | pattern => "quoted pattern"
  | ordering => "ordering comparison"

/-- Why a condition on a field is refused. -/
inductive Refusal where
  | unknownField
  | kindMismatch (expected found : Value.Kind)
  | unsupportedForm (style : ComparisonStyle) (form : ConditionForm)
  deriving DecidableEq, Repr

/-- The wording of a refusal. -/
def Refusal.message : Refusal → String
  | unknownField => "unknown field"
  | kindMismatch expected found => s!"expected a {expected.name} value, found {found.name}"
  | unsupportedForm style form => s!"{form.name} is not supported by {style.name} fields"

/-- A condition that the schema refuses. -/
structure ValidationError where
  field : String
  reason : Refusal
  deriving DecidableEq, Repr

/-- The wording of a validation error. -/
def ValidationError.message (e : ValidationError) : String :=
  s!"invalid field '{e.field}': {e.reason.message}"

namespace FieldSpec

/-- Refuse a value that is not of the declared kind. -/
def checkKind (s : FieldSpec) (v : Value) : Except Refusal Unit :=
  if v.kind = s.kind then .ok () else .error (.kindMismatch s.kind v.kind)

/-- Refuse a form that needs an ordered field. -/
def checkRange (s : FieldSpec) (form : ConditionForm) : Except Refusal Unit :=
  if s.supportsRange then .ok () else .error (.unsupportedForm s.style form)

/-- The test that a condition becomes on a field of this specification. -/
def resolve (s : FieldSpec) : Condition → Except Refusal Test
  | .equals v => do
    s.checkKind v
    return .equals v
  | .within r => do
    s.checkRange .range
    s.checkKind r.lower
    s.checkKind r.upper
    return .within r
  | .quoted text =>
    match s.matchStyle? with
    | none => .error (.unsupportedForm s.style .pattern)
    | some style =>
      if s.kind = .text then .ok (.fits ⟨text, style⟩)
      else .error (.kindMismatch s.kind .text)
  | .compares op v => do
    s.checkRange .ordering
    s.checkKind v
    return .compares op v

end FieldSpec

namespace Schema

/-- The check that a condition on a field becomes. -/
def resolveLeaf (schema : Schema) (field : String) (condition : Condition) :
    Except ValidationError Check :=
  match schema.find? field with
  | none => .error ⟨field, .unknownField⟩
  | some spec =>
    match spec.resolve condition with
    | .ok test => .ok ⟨field, test⟩
    | .error reason => .error ⟨field, reason⟩

/-- The predicate that a query becomes. -/
def resolve (schema : Schema) : Query → Except ValidationError Predicate
  | .leaf field condition => do
    let check ← resolveLeaf schema field condition
    return .check check
  | .join c left right => do
    let left ← resolve schema left
    let right ← resolve schema right
    return .join c left right
  | .not operand => do
    let operand ← resolve schema operand
    return .not operand

end Schema

end FieldFilter
