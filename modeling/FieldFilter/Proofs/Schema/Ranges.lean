import FieldFilter.Proofs.Record.Comparisons
import FieldFilter.Resolution

/-!
# Ranges as pairs of comparisons

A range says no more than that a field is at least its lower bound and at most its upper one. The
schema treats the two ways of saying it alike: it resolves both or neither, and a refusal gives the
same reason, except that it names the form that was written. What they are resolved to accepts the
same records.
-/

namespace FieldFilter

/-- The refusal with another form in the place of the one that it names, if it names one. -/
def Refusal.withForm (form : ConditionForm) : Refusal → Refusal
  | unsupportedForm style _ => .unsupportedForm style form
  | reason => reason

namespace Query

/-- The field lies between two values, said by a range. -/
def between (field : String) (lower upper : Value) : Query := .leaf field (.within ⟨lower, upper⟩)

/-- The field lies between two values, said by two comparisons. -/
def fromTo (field : String) (lower upper : Value) : Query :=
  .join .and (.leaf field (.compares .atLeast lower)) (.leaf field (.compares .atMost upper))

end Query

namespace Predicate

/-- What a range is resolved to. -/
def between (field : String) (lower upper : Value) : Predicate :=
  .check ⟨field, .within ⟨lower, upper⟩⟩

/-- What the two comparisons are resolved to. -/
def fromTo (field : String) (lower upper : Value) : Predicate :=
  .join .and (.check ⟨field, .compares .atLeast lower⟩) (.check ⟨field, .compares .atMost upper⟩)

/-- The range and the two comparisons accept the same records. -/
theorem accepts_between (field : String) (lower upper : Value) (r : Record) :
    (between field lower upper).accepts r = (fromTo field lower upper).accepts r :=
  r.answer_within field ⟨lower, upper⟩

end Predicate

/-! ## Resolving them -/

namespace Schema

variable (schema : Schema) (field : String) (lower upper : Value)

/-- The range and the two comparisons are both resolved, or both refused for one reason. -/
inductive SaidAlike : Except ValidationError Predicate → Except ValidationError Predicate → Prop
  | resolved : SaidAlike (.ok (.between field lower upper)) (.ok (.fromTo field lower upper))
  | refused {asRange asOrdering : Refusal} (horder : asOrdering = asRange.withForm .ordering)
      (hrange : asRange = asOrdering.withForm .range) :
      SaidAlike (.error ⟨field, asRange⟩) (.error ⟨field, asOrdering⟩)

/-- A schema makes the same of the range and of the two comparisons. Both ways check first that the
field supports the form, then the kind of the lower bound and then that of the upper one; the second
comparison checks the form once more, but by then it is known to be supported. -/
theorem saidAlike_resolve :
    SaidAlike field lower upper (schema.resolve (.between field lower upper))
      (schema.resolve (.fromTo field lower upper)) := by
  unfold Query.between Query.fromTo
  cases hfind : schema.find? field with
  | none =>
    simp only [resolve, resolveLeaf, hfind]
    exact .refused rfl rfl
  | some spec =>
    simp only [resolve, resolveLeaf, hfind, FieldSpec.resolve, FieldSpec.checkRange,
      FieldSpec.checkKind]
    by_cases hform : spec.supportsRange = true
    · by_cases hlower : lower.kind = spec.kind
      · by_cases hupper : upper.kind = spec.kind
        · simp only [if_pos hform, if_pos hlower, if_pos hupper]
          exact .resolved
        · simp only [if_pos hform, if_pos hlower, if_neg hupper]
          exact .refused rfl rfl
      · simp only [if_pos hform, if_neg hlower]
        exact .refused rfl rfl
    · simp only [if_neg hform]
      exact .refused rfl rfl

/-- A range is the conjunction of its two comparisons. A schema resolves the one exactly if it
resolves the other; if it refuses them, both errors are on the field and their reasons differ in the
form that they name at most; and what they are resolved to accepts the same records. Every record
answers the range as it answers the two comparisons together, of whatever kinds the bounds are. -/
theorem range_eq_pair_of_comparisons :
    ((∃ p, schema.resolve (.between field lower upper) = .ok p) ↔
      ∃ p, schema.resolve (.fromTo field lower upper) = .ok p) ∧
    (∀ e e', schema.resolve (.between field lower upper) = .error e →
      schema.resolve (.fromTo field lower upper) = .error e' →
      e.field = field ∧ e'.field = field ∧
      e'.reason = e.reason.withForm .ordering ∧ e.reason = e'.reason.withForm .range) ∧
    (∀ p p', schema.resolve (.between field lower upper) = .ok p →
      schema.resolve (.fromTo field lower upper) = .ok p' →
      ∀ r : Record, p.accepts r = p'.accepts r) ∧
    ∀ r : Record, r.answer ⟨field, .within ⟨lower, upper⟩⟩ =
      (r.answer ⟨field, .compares .atLeast lower⟩ &&
        r.answer ⟨field, .compares .atMost upper⟩) := by
  have halike := saidAlike_resolve schema field lower upper
  generalize schema.resolve (.between field lower upper) = range at halike ⊢
  generalize schema.resolve (.fromTo field lower upper) = pair at halike ⊢
  cases halike with
  | resolved =>
    refine ⟨by simp, by simp, ?_, fun r => r.answer_within field ⟨lower, upper⟩⟩
    rintro p p' ⟨⟩ ⟨⟩ r
    exact Predicate.accepts_between field lower upper r
  | refused horder hrange =>
    refine ⟨by simp, ?_, by simp, fun r => r.answer_within field ⟨lower, upper⟩⟩
    rintro e e' ⟨⟩ ⟨⟩
    exact ⟨rfl, rfl, horder, hrange⟩

/-- A field with ranges, where the pair of bounds is read, and one without, where each way of saying
it is refused for its own form. -/
theorem range_eq_pair_of_comparisons_sizeAndCode :
    let schema : Schema :=
      (FieldMap.empty.insert "size" ⟨.number, .range⟩).insert "code" ⟨.number, .equality⟩
    let one : Value := .number ⟨false, 1, 0, by decide, by decide⟩
    let two : Value := .number ⟨false, 2, 0, by decide, by decide⟩
    let r : Record := FieldMap.empty.insert "size" one
    let e : ValidationError := ⟨"code", .unsupportedForm .equality .range⟩
    let e' : ValidationError := ⟨"code", .unsupportedForm .equality .ordering⟩
    schema.resolve (.between "size" one two) = .ok (.between "size" one two) ∧
      schema.resolve (.fromTo "size" one two) = .ok (.fromTo "size" one two) ∧
      (Predicate.between "size" one two).accepts r = (Predicate.fromTo "size" one two).accepts r ∧
    schema.resolve (.between "code" one two) = .error e ∧
      schema.resolve (.fromTo "code" one two) = .error e' ∧
      e'.reason = e.reason.withForm .ordering := by
  intro schema one two r e e'
  have hrange : schema.resolve (.between "size" one two) = .ok (.between "size" one two) := rfl
  have hpair : schema.resolve (.fromTo "size" one two) = .ok (.fromTo "size" one two) := rfl
  have herror : schema.resolve (.between "code" one two) = .error e := rfl
  have herror' : schema.resolve (.fromTo "code" one two) = .error e' := rfl
  obtain ⟨-, -, haccepts, -⟩ := range_eq_pair_of_comparisons schema "size" one two
  obtain ⟨-, hreasons, -, -⟩ := range_eq_pair_of_comparisons schema "code" one two
  exact ⟨hrange, hpair, haccepts _ _ hrange hpair r, herror, herror',
    (hreasons e e' herror herror').2.2.1⟩

end Schema

end FieldFilter
