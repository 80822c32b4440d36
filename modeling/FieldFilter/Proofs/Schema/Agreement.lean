import FieldFilter.Engine
import Mathlib.Data.List.Basic

/-!
# Schemas that a query cannot tell apart

A query asks a schema for the fields that it mentions and for nothing else, and before it asks
anything, its text has been found short enough and well formed. So two schemas that agree on the
mentioned fields make the same of a query, be it a predicate or an error, and an engine may get any
such schema in place of its own. What is wrong with a text alone is wrong under every schema.
-/

namespace FieldFilter

/-! ## Mentioned fields -/

namespace Query

/-- Adding the fields of a query to a list adds the fields of its leaves. -/
theorem mem_addFields {q : Query} {seen : List String} {field : String} :
    field ∈ q.addFields seen ↔ field ∈ seen ∨ ∃ c, (field, c) ∈ q.leaves := by
  induction q generalizing seen with
  | leaf name c =>
    have hleaves : (∃ c', (field, c') ∈ (leaf name c).leaves) ↔ field = name := by
      simp [leaves]
    rw [addFields, hleaves]
    split
    · rename_i hseen
      have hname : name ∈ seen := by simpa using hseen
      exact ⟨.inl, fun h => h.elim id fun heq => heq ▸ hname⟩
    · rw [List.mem_append, List.mem_singleton]
  | join c left right ihl ihr =>
    rw [addFields, ihr, ihl, or_assoc]
    simp only [leaves, List.mem_append, exists_or]
  | not operand ih => exact ih

/-- The fields of a query are the fields of its leaves. -/
theorem mem_fields {q : Query} {field : String} :
    field ∈ q.fields ↔ ∃ c, (field, c) ∈ q.leaves := by
  rw [fields, mem_addFields]
  simp

end Query

/-! ## Schemas that agree -/

namespace Schema

/-- The schemas say the same of every field that the query mentions, or both say nothing. -/
def AgreeOn (q : Query) (s t : Schema) : Prop := ∀ field ∈ q.fields, s.find? field = t.find? field

variable {s t : Schema}

theorem AgreeOn.left {c : Connective} {left right : Query} (h : AgreeOn (.join c left right) s t) :
    AgreeOn left s t := by
  intro field hfield
  obtain ⟨condition, hleaf⟩ := Query.mem_fields.1 hfield
  exact h field (Query.mem_fields.2 ⟨condition, List.mem_append_left _ hleaf⟩)

theorem AgreeOn.right {c : Connective} {left right : Query} (h : AgreeOn (.join c left right) s t) :
    AgreeOn right s t := by
  intro field hfield
  obtain ⟨condition, hleaf⟩ := Query.mem_fields.1 hfield
  exact h field (Query.mem_fields.2 ⟨condition, List.mem_append_right _ hleaf⟩)

/-- Schemas that agree on a query make the same of it. -/
theorem AgreeOn.resolve_eq {q : Query} (h : AgreeOn q s t) : resolve s q = resolve t q := by
  induction q with
  | leaf field c =>
    have hfield := h field (Query.mem_fields.2 ⟨c, List.mem_singleton_self _⟩)
    rw [resolve, resolve, resolveLeaf, resolveLeaf, hfield]
  | join c left right ihl ihr => rw [resolve, resolve, ihl h.left, ihr h.right]
  | not operand ih => rw [resolve, resolve, ih h]

end Schema

/-! ## Compiling against them -/

/-- Either the schema has no say in what a text compiles to, or the text is parsed and all is left
to the schema. -/
theorem compile_or_resolve (limits : Limits) (text : String) :
    (∃ o, ∀ schema, compile limits schema text = o) ∨
    ∃ q, Query.parse limits.maxDepth text = .ok q ∧
      ∀ schema : Schema, compile limits schema text = (schema.resolve q).mapError .invalid := by
  unfold compile
  by_cases hblank : isBlank text = true
  · exact .inl ⟨_, fun _ => if_pos hblank⟩
  by_cases hlong : limits.maxQueryLength < text.utf8ByteSize
  · exact .inl ⟨_, fun _ => (if_neg hblank).trans (if_pos hlong)⟩
  simp only [if_neg hblank, if_neg hlong]
  cases Query.parse limits.maxDepth text with
  | error e => exact .inl ⟨_, fun _ => rfl⟩
  | ok q =>
    refine .inr ⟨q, rfl, fun schema => ?_⟩
    dsimp only
    cases schema.resolve q with
    | error e => rfl
    | ok p => rfl

/-- Schemas that agree on the query of a text compile the text alike. -/
theorem compile_eq_of_agreeOn {limits : Limits} {s t : Schema} {text : String}
    (h : ∀ q, Query.parse limits.maxDepth text = .ok q → Schema.AgreeOn q s t) :
    compile limits s text = compile limits t text := by
  rcases compile_or_resolve limits text with ⟨o, ho⟩ | ⟨q, hq, hcompile⟩
  · rw [ho, ho]
  · rw [hcompile, hcompile, (h q hq).resolve_eq]

/-- An error that is not the schema's is the same under every schema. -/
theorem compile_eq_error_of_ne_invalid {limits : Limits} {s : Schema} {text : String}
    {error : CompileError} (h : compile limits s text = .error error)
    (herror : ∀ e, error ≠ .invalid e) (t : Schema) : compile limits t text = .error error := by
  rcases compile_or_resolve limits text with ⟨o, ho⟩ | ⟨q, _, hcompile⟩
  · rw [ho t, ← ho s, h]
  · rw [hcompile] at h
    cases hresolve : s.resolve q with
    | ok p =>
      rw [hresolve] at h
      cases h
    | error e =>
      rw [hresolve] at h
      cases h
      exact absurd rfl (herror e)

/-- Changes of a schema that do not touch the fields of a query make no difference to it. Schemas
that agree on the fields of a query resolve it alike. An engine whose schema is replaced by one that
agrees on the fields of the query of a text compiles and filters by the text as before. And what is
wrong with the length, the tokens or the form of a text is wrong under every schema. -/
theorem compile_eq_of_unrelated_changes :
    (∀ (q : Query) (s t : Schema), (∀ field ∈ q.fields, s.find? field = t.find? field) →
      s.resolve q = t.resolve q) ∧
    (∀ (e : Engine) (schema : Schema) (text : String),
      (∀ q, Query.parse e.limits.maxDepth text = .ok q →
        ∀ field ∈ q.fields, e.schema.find? field = schema.find? field) →
      (e.replaceSchema schema).compile text = e.compile text ∧
      ∀ (α : Type) (answer : α → Check → Bool) (candidates : List α),
        (e.replaceSchema schema).filter answer text candidates =
          e.filter answer text candidates) ∧
    ∀ (limits : Limits) (s t : Schema) (text : String) (error : CompileError),
      compile limits s text = .error error → (∀ e, error ≠ .invalid e) →
      compile limits t text = .error error := by
  refine ⟨fun q s t h => Schema.AgreeOn.resolve_eq h, ?_, ?_⟩
  · intro e schema text h
    have hcompile : (e.replaceSchema schema).compile text = e.compile text := by
      unfold Engine.compile Engine.replaceSchema
      rw [compile_eq_of_agreeOn h]
    refine ⟨hcompile, fun α answer candidates => ?_⟩
    unfold Engine.filter
    rw [hcompile]
  · intro limits s t text error h herror
    exact compile_eq_error_of_ne_invalid h herror t

/-- A schema with one text field, and the same with a number field beside it. -/
theorem compile_eq_of_unrelated_changes_newField :
    let s : Schema := FieldMap.empty.insert "a" ⟨.text, .equality⟩
    let t : Schema := s.insert "b" ⟨.number, .range⟩
    let q : Query := .not (.leaf "a" (.equals (.identifier "x")))
    let e : Engine := ⟨.default, s⟩
    let error : CompileError := .malformed (.unexpectedToken Query.Parser.conditionStart "'('" 2)
    (∀ field ∈ q.fields, s.find? field = t.find? field) ∧ s.resolve q = t.resolve q ∧
    (∀ q', Query.parse e.limits.maxDepth "NOT a:x" = .ok q' →
        ∀ field ∈ q'.fields, s.find? field = t.find? field) ∧
      (e.replaceSchema t).compile "NOT a:x" = e.compile "NOT a:x" ∧
      (e.replaceSchema t).filter Record.answer "NOT a:x" [FieldMap.empty] =
        e.filter Record.answer "NOT a:x" [FieldMap.empty] ∧
    compile .default s "a:(x" = .error error ∧ (∀ e, error ≠ .invalid e) ∧
      compile .default t "a:(x" = .error error := by
  intro s t q e error
  have hfields : ∀ field ∈ q.fields, s.find? field = t.find? field := by decide
  have hparse : Query.parse e.limits.maxDepth "NOT a:x" = .ok q := by decide +kernel
  have hmentioned (q' : Query) (h : Query.parse e.limits.maxDepth "NOT a:x" = .ok q') :
      ∀ field ∈ q'.fields, s.find? field = t.find? field := by
    obtain rfl := Except.ok.inj (hparse.symm.trans h)
    exact hfields
  have herror : compile .default s "a:(x" = .error error := by decide +kernel
  have hvalid (e : ValidationError) : error ≠ .invalid e := by simp [error]
  obtain ⟨hresolve, hengine, hmalformed⟩ := compile_eq_of_unrelated_changes
  obtain ⟨hcompile, hfilter⟩ := hengine e t "NOT a:x" hmentioned
  exact ⟨hfields, hresolve q s t hfields, hmentioned, hcompile,
    hfilter Record Record.answer [FieldMap.empty], herror, hvalid,
    hmalformed .default s t "a:(x" error herror hvalid⟩

end FieldFilter
