import FieldFilter.Configuration
import FieldFilter.Record

/-!
# Engines

An engine compiles and runs the queries of a host under its limits and against its current schema.
Replacing the schema gives a new engine, so a schema that was taken from an engine stays what it
was. Filtering keeps the candidates that a query accepts, in their order.
-/

namespace FieldFilter

/-- The limits and the current schema of a host. -/
structure Engine where
  limits : Limits
  schema : Schema
  deriving DecidableEq

namespace Engine

/-- The engine of a configuration. -/
def ofConfiguration (c : Configuration) : Engine := ⟨c.limits, c.schema⟩

/-- The engine with another schema. -/
def replaceSchema (e : Engine) (schema : Schema) : Engine := { e with schema := schema }

/-- The predicate of a query. -/
def compile (e : Engine) (query : String) : Except HostError Predicate :=
  match FieldFilter.compile e.limits e.schema query with
  | .error error => .error (.query error)
  | .ok p => .ok p

/-- The candidates that a query accepts, each of which answers checks in its own way. -/
def filter {α : Type} (e : Engine) (answer : α → Check → Bool) (query : String)
    (candidates : List α) : Except HostError (List α) :=
  match e.compile query with
  | .error error => .error error
  | .ok p => .ok (candidates.filter fun c => p.eval (answer c))

end Engine

end FieldFilter
