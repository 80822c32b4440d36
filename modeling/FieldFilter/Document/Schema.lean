import FieldFilter.Json.Reader
import FieldFilter.Json.Writer
import FieldFilter.Schema

/-!
# Schemas in documents

A schema is an object that maps field names to specifications. A specification names a kind and a
style, and for fields that support patterns also how these are matched. Only text fields may support
patterns, and a match style is refused everywhere else.
-/

namespace FieldFilter

open Json Json.Reader

/-- Read an object as a map from names to values; of two members with one name the later counts. -/
def FieldMap.read {α : Type} (levels : Nat) (value : Nat → Reader α) : Reader (FieldMap α) :=
  object levels fun levels =>
    members (fun m name => do
      expect .colon
      return m.insert name (← value levels)) FieldMap.empty

/-- A map as an object with its members in the order of their names. -/
def FieldMap.document {α : Type} (m : FieldMap α) (value : α → List Lexeme) : List Lexeme :=
  Writer.object (m.entries.map fun (name, a) => (name, value a))

/-- The names of the kinds. -/
def Value.Kind.names : List (String × Value.Kind) :=
  Value.Kind.all.map fun kind => (kind.name, kind)

/-- The names of the match styles. -/
def MatchStyle.names : List (String × MatchStyle) :=
  MatchStyle.all.map fun style => (style.name, style)

namespace FieldSpec

/-- The comparison styles, without the match style that belongs to one of them. -/
inductive StyleName where
  | equality
  | range
  | textPattern
  deriving DecidableEq, Repr

/-- The names of the comparison styles. -/
def styleNames : List (String × StyleName) :=
  [("equality", .equality), ("range", .range), ("text_pattern", .textPattern)]

/-- The members of a specification. -/
def memberNames : List String := ["kind", "style", "match"]

/-- A specification as it is written: a match style may stand beside any style. -/
structure Draft where
  kind : Value.Kind
  style : StyleName
  matchStyle : Option MatchStyle
  deriving DecidableEq, Repr

/-- Why a specification makes no sense. -/
inductive DraftError where
  /-- A field that is not text cannot support patterns. -/
  | patternsNeedText (kind : Value.Kind)
  /-- A match style belongs to fields that support patterns. -/
  | matchStyleNeedsPatterns (style : MatchStyle)
  deriving DecidableEq, Repr

/-- The wording of the error. -/
def DraftError.message : DraftError → String
  | patternsNeedText kind =>
    s!"style 'text_pattern' requires kind 'text', found '{kind.name}'"
  | matchStyleNeedsPatterns style =>
    s!"match style '{style.name}' requires style 'text_pattern'"

/-- The specification that a draft stands for. -/
def ofDraft (d : Draft) : Except DraftError FieldSpec :=
  match d.style, d.matchStyle with
  | .textPattern, style =>
    if d.kind = .text then .ok ⟨d.kind, .textPattern (style.getD .default)⟩
    else .error (.patternsNeedText d.kind)
  | _, some style => .error (.matchStyleNeedsPatterns style)
  | .equality, none => .ok ⟨d.kind, .equality⟩
  | .range, none => .ok ⟨d.kind, .range⟩

/-- A specification as a document; a match style is written exactly where patterns are supported. -/
def document (s : FieldSpec) : List Lexeme :=
  let kind : String × List Lexeme := ("kind", [.text s.kind.name])
  match s.style with
  | .equality => Writer.object [kind, ("style", [.text "equality"])]
  | .range => Writer.object [kind, ("style", [.text "range"])]
  | .textPattern style =>
    Writer.object [kind, ("style", [.text "text_pattern"]), ("match", [.text style.name])]

/-- The members of a specification that have been read. -/
structure Members where
  kind : Option Value.Kind
  style : Option StyleName
  matchStyle : Option (Option MatchStyle)
  deriving DecidableEq, Repr

/-- Read a match style, which may be null. -/
def readMatchStyle (levels : Nat) : Reader (Option MatchStyle) :=
  nullable (choice levels MatchStyle.names)

/-- Read a member of a specification. -/
def readMember (levels : Nat) (state : Members) (name : String) : Reader Members := do
  if name = "kind" then
    return { state with kind := ← memberValue name state.kind (choice levels Value.Kind.names) }
  else if name = "style" then
    return { state with style := ← memberValue name state.style (choice levels styleNames) }
  else if name = "match" then
    return { state with
      matchStyle := ← memberValue name state.matchStyle (readMatchStyle levels) }
  else refuse (.unknownField name memberNames)

/-- Read a draft of a specification. -/
def readDraft (levels : Nat) : Reader Draft :=
  structured levels
    (fun levels => do
      let m ← members (readMember levels) ⟨none, none, none⟩
      return ⟨← require "kind" m.kind, ← require "style" m.style, m.matchStyle.join⟩)
    (fun levels => do
      let kind ← element true (choice levels Value.Kind.names)
      let style ← element false (choice levels styleNames)
      let matchStyle ← element? false (readMatchStyle levels)
      return ⟨kind, style, matchStyle.join⟩)

/-- Read a specification. -/
def read (levels : Nat) : Reader FieldSpec := do
  match ofDraft (← readDraft levels) with
  | .ok spec => return spec
  | .error e => refuse (.rejected e.message)

end FieldSpec

namespace Schema

/-- A schema as a document. -/
def document (s : Schema) : List Lexeme := FieldMap.document s FieldSpec.document

/-- Read a schema. -/
def read (levels : Nat) : Reader Schema := FieldMap.read levels FieldSpec.read

/-- The schema that a text describes. -/
def ofJson (text : String) : Except Fault Schema := run read text

/-- The compact text of a schema. -/
def toJson (s : Schema) : String := Lexeme.spell s.document

end Schema

end FieldFilter
