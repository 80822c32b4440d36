import FieldFilter.Document.Schema
import FieldFilter.Document.Value
import FieldFilter.Predicate

/-!
# Predicates in documents

A predicate is an object whose only member names its form. Checks and joined pairs hold the array
of their parts, a negation holds its operand, and a constant its answer.
-/

namespace FieldFilter

open Json Json.Reader

/-- The names of the comparisons. -/
def Comparison.names : List (String × Comparison) := all.map fun op => (op.name, op)

namespace Pattern

/-- A pattern as a document. -/
def document (p : Pattern) : List Lexeme :=
  Writer.object [("text", [.text p.text]), ("style", [.text p.style.name])]

/-- Read a member of a pattern; members of other names are passed over. -/
def readMember (levels : Nat) (state : Option String × Option MatchStyle) (name : String) :
    Reader (Option String × Option MatchStyle) := do
  if name = "text" then return (← memberValue name state.1 Reader.text, state.2)
  else if name = "style" then
    return (state.1, ← memberValue name state.2 (choice levels MatchStyle.names))
  else
    expect .colon
    skip
    return state

/-- Read a pattern. -/
def read (levels : Nat) : Reader Pattern :=
  structured levels
    (fun levels => do
      let (text, style) ← members (readMember levels) (none, none)
      return ⟨← require "text" text, ← require "style" style⟩)
    (fun levels => do
      let text ← element true Reader.text
      return ⟨text, ← element false (choice levels MatchStyle.names)⟩)

end Pattern

namespace Predicate

/-- The forms of a predicate, as documents name them. -/
inductive Form where
  | equals
  | within
  | fits
  | compares
  | join (connective : Connective)
  | not
  | always
  deriving DecidableEq, Repr

/-- The names of the forms. -/
def forms : List (String × Form) :=
  [("equals", .equals), ("in_range", .within), ("matches", .fits), ("compare", .compares),
    ("and", .join .and), ("or", .join .or), ("not", .not), ("always", .always)]

/-- A predicate as a document. -/
def document : Predicate → List Lexeme
  | check ⟨field, .equals v⟩ =>
    Writer.object [("equals", Writer.array [[.text field], v.document])]
  | check ⟨field, .within r⟩ =>
    Writer.object [("in_range", Writer.array [[.text field], r.document])]
  | check ⟨field, .fits p⟩ =>
    Writer.object [("matches", Writer.array [[.text field], p.document])]
  | check ⟨field, .compares op v⟩ =>
    Writer.object [("compare", Writer.array [[.text field], [.text op.name], v.document])]
  | join .and left right =>
    Writer.object [("and", Writer.array [left.document, right.document])]
  | join .or left right =>
    Writer.object [("or", Writer.array [left.document, right.document])]
  | not operand => Writer.object [("not", operand.document)]
  | always b => Writer.object [("always", [.boolean b])]

/-- Read a test and the field in front of it. -/
def readCheck (levels : Nat) (test : Nat → Reader Test) : Reader Predicate :=
  tuple levels fun levels => do
    let field ← element true text
    return check ⟨field, ← test levels⟩

/-- Read a predicate. -/
def read (levels : Nat) : Reader Predicate := do
  match ← next with
  | .sound (.text name) =>
    let _ ← lookUp forms name
    refuse .wrongType
  | .sound .beginObject =>
    match levels with
    | 0 => fail .malformed
    | levels + 1 =>
      let form ← lookUp forms (← memberName (← next))
      expect .colon
      let p ← match form with
        | .equals => readCheck levels fun levels =>
          return .equals (← element false (Value.read levels))
        | .within => readCheck levels fun levels =>
          return .within (← element false (Range.read levels))
        | .fits => readCheck levels fun levels =>
          return .fits (← element false (Pattern.read levels))
        | .compares => readCheck levels fun levels => do
          let op ← element false (choice levels Comparison.names)
          return .compares op (← element false (Value.read levels))
        | .join connective =>
          match ← next with
          | .sound .beginArray =>
            match levels with
            | 0 => fail .malformed
            | levels + 1 =>
              let left ← element true (read levels)
              let right ← element false (read levels)
              expect .endArray
              pure (join connective left right)
          | p => wrongType p
        | .not => not <$> read levels
        | .always => always <$> boolean
      expect .endObject
      return p
  | .flawed (.brokenText reading _) => fail reading
  | _ => fail .malformed

/-- The predicate that a text describes. -/
def ofJson (text : String) : Except Fault Predicate := run read text

/-- The compact text of a predicate. -/
def toJson (p : Predicate) : String := Lexeme.spell p.document

end Predicate

end FieldFilter
