import FieldFilter.Json.Lexeme

/-!
# Reading documents

A reader takes pieces from the front of a document and yields a value or the first fault that it
meets. The readers here are the common parts of all documents: literals, closed choices of names,
objects with their members, arrays with their elements, and parts that nobody asks for. A reader
that opens an object or an array is told how many levels it may still open.
-/

namespace FieldFilter.Json

/-- A reader of values from the front of a row of pieces. -/
abbrev Reader (α : Type) := StateT (List Piece) (Except Fault) α

namespace Reader

/-- The number of objects and arrays that may stand around one another. -/
def maxLevels : Nat := 127

/-- Stop with a fault. -/
def fail {α : Type} (fault : Fault) : Reader α := fun _ => .error fault

/-- Stop because of a mismatch. -/
def refuse {α : Type} (cause : Mismatch) : Reader α := fail (.mismatch cause)

/-- Take the next piece. -/
def next : Reader Piece
  | [] => .error .ended
  | p :: ps => .ok (p, ps)

/-- Look at the next piece. -/
def peek : Reader Piece
  | [] => .error .ended
  | p :: ps => .ok (p, p :: ps)

/-- Take one certain lexeme. -/
def expect (lexeme : Lexeme) : Reader Unit := do
  if (← next) = .sound lexeme then return () else fail .malformed

/-- Stop at a piece that is not of the type asked for: a value of another type is a mismatch, and
anything else breaks the grammar. -/
def wrongType {α : Type} : Piece → Reader α
  | .sound .null | .sound (.boolean _) | .sound (.number _) | .sound (.text _)
  | .sound .beginObject | .sound .beginArray => refuse .wrongType
  | .flawed flaw => fail flaw.fault
  | _ => fail .malformed

/-! ## Single values -/

/-- Read a text. -/
def text : Reader String := do
  match ← next with
  | .sound (.text s) => return s
  | p => wrongType p

/-- Read a truth value. -/
def boolean : Reader Bool := do
  match ← next with
  | .sound (.boolean b) => return b
  | p => wrongType p

/-- Read a whole number from zero to 2^64 - 1. -/
def natural : Reader Nat := do
  match ← next with
  | .sound (.number (.natural n)) => return n
  | p => wrongType p

/-- Read a null. -/
def null : Reader Unit := do
  match ← next with
  | .sound .null => return ()
  | p => wrongType p

/-- Read a value that may be null. -/
def nullable {α : Type} (value : Reader α) : Reader (Option α) := do
  match ← peek with
  | .sound .null =>
    let _ ← next
    return none
  | .flawed (.brokenNull fault) => fail fault
  | _ => return some (← value)

/-- The value of a name from a closed list. -/
def lookUp {α : Type} (choices : List (String × α)) (name : String) : Reader α :=
  match choices.lookup name with
  | some a => pure a
  | none => refuse (.unknownVariant name (choices.map (·.1)))

/-- Read the name of a member from a piece that must be one. -/
def memberName : Piece → Reader String
  | .sound (.text name) => pure name
  | .flawed (.brokenText reading _) => fail reading
  | _ => fail .malformed

/-- Read a name from a closed list, as a text. -/
def plainChoice {α : Type} (choices : List (String × α)) : Reader α := do
  lookUp choices (← text)

/-- Read a name from a closed list, either by itself or as the only member of an object, with a
null under it. -/
def choice {α : Type} (levels : Nat) (choices : List (String × α)) : Reader α := do
  match ← next with
  | .sound (.text name) => lookUp choices name
  | .sound .beginObject =>
    if levels = 0 then fail .malformed
    else
      let a ← lookUp choices (← memberName (← next))
      expect .colon
      null
      expect .endObject
      return a
  | .flawed (.brokenText reading _) => fail reading
  | _ => fail .malformed

/-! ## Objects -/

/-- Read the name of the next member, or the end of the object if there is none. -/
def nextMember (isFirst : Bool) : Reader (Option String) := do
  match ← next with
  | .sound .endObject => return none
  | .sound .comma =>
    if isFirst then fail .malformed
    else return some (← memberName (← next))
  | p => if isFirst then return some (← memberName p) else fail .malformed

/-- Read members up to the end of the object. Each member takes pieces, so as many steps as there
are pieces are enough. -/
def membersWithin {σ : Type} (member : σ → String → Reader σ) :
    Nat → Bool → σ → Reader σ
  | 0, _, _ => fail .ended
  | steps + 1, isFirst, state => do
    match ← nextMember isFirst with
    | none => return state
    | some name => membersWithin member steps false (← member state name)

/-- Read the members of an object from behind its opening bracket. A member is handed its name and
reads the colon and the value. -/
def members {σ : Type} (member : σ → String → Reader σ) (state : σ) : Reader σ := do
  membersWithin member ((← get).length + 1) true state

/-- Read the value of a member that may appear once. -/
def memberValue {α : Type} (name : String) (earlier : Option α) (value : Reader α) :
    Reader (Option α) := do
  if earlier.isSome then refuse (.duplicateField name)
  else
    expect .colon
    return some (← value)

/-- Require a member. -/
def require {α : Type} (name : String) : Option α → Reader α
  | some a => pure a
  | none => refuse (.missingField name)

/-! ## Arrays -/

/-- Whether another element follows, which is then next. -/
def hasElement (isFirst : Bool) : Reader Bool := do
  match ← peek with
  | .sound .endArray => return false
  | p =>
    if isFirst then return true
    else if p = .sound .comma then
      let _ ← next
      if (← peek) = .sound .endArray then fail .malformed else return true
    else fail .malformed

/-- Read an element if there is another one. -/
def element? {α : Type} (isFirst : Bool) (value : Reader α) : Reader (Option α) := do
  if ← hasElement isFirst then return some (← value) else return none

/-- Read an element that must be there. -/
def element {α : Type} (isFirst : Bool) (value : Reader α) : Reader α := do
  if ← hasElement isFirst then value else refuse .wrongType

/-- Read elements up to the end of the array, which is left in place. -/
def elementsWithin (value : Reader Unit) : Nat → Bool → Reader Unit
  | 0, _ => fail .ended
  | steps + 1, isFirst => do
    if ← hasElement isFirst then
      value
      elementsWithin value steps false

/-- Read the elements of an array from behind its opening bracket, and its end. -/
def elements (value : Reader Unit) : Reader Unit := do
  elementsWithin value ((← get).length + 1) true
  expect .endArray

/-- Read an array of a fixed number of elements. -/
def tuple {α : Type} (levels : Nat) (elements : Nat → Reader α) : Reader α := do
  match ← next with
  | .sound .beginArray =>
    match levels with
    | 0 => fail .malformed
    | levels + 1 =>
      let a ← elements levels
      expect .endArray
      return a
  | p => wrongType p

/-- Read an object from behind whose opening bracket the given number of levels is left. -/
def object {α : Type} (levels : Nat) (members : Nat → Reader α) : Reader α := do
  match ← next with
  | .sound .beginObject =>
    match levels with
    | 0 => fail .malformed
    | levels + 1 => members levels
  | p => wrongType p

/-- Read a structure, either from an object with its members in any order or from an array of their
values in a fixed order. -/
def structured {α : Type} (levels : Nat) (object array : Nat → Reader α) : Reader α := do
  match ← next with
  | .sound .beginObject =>
    match levels with
    | 0 => fail .malformed
    | levels + 1 => object levels
  | .sound .beginArray =>
    match levels with
    | 0 => fail .malformed
    | levels + 1 =>
      let a ← array levels
      expect .endArray
      return a
  | p => wrongType p

/-! ## Parts that nobody asks for -/

/-- A bracket that is still open while a part is passed over. -/
inductive Open where
  | object
  | array
  deriving DecidableEq, Repr

/-- What may come next while a part is passed over. -/
inductive Awaiting where
  | value
  | valueOrEnd
  | name
  | nameOrEnd
  | colon
  | separator
  deriving DecidableEq, Repr

/-- What is awaited behind a value inside open brackets; nothing if there are none. -/
def afterValue : List Open → Option (Awaiting × List Open)
  | [] => none
  | around => some (.separator, around)

/-- Pass over the first piece of a value. -/
def skipValuePiece (around : List Open) :
    Piece → Except Fault (Option (Awaiting × List Open))
  | .sound .beginObject => .ok (some (.nameOrEnd, .object :: around))
  | .sound .beginArray => .ok (some (.valueOrEnd, .array :: around))
  | .sound .null | .sound (.boolean _) | .sound (.number _) | .sound (.text _)
  | .flawed .hugeNumber | .flawed .halfText => .ok (afterValue around)
  | .flawed (.brokenText _ skipping) | .flawed (.brokenNull skipping)
  | .flawed (.broken _ skipping) => .error skipping
  | _ => .error .malformed

/-- Pass over the name of a member. -/
def skipNamePiece (around : List Open) :
    Piece → Except Fault (Option (Awaiting × List Open))
  | .sound (.text _) | .flawed .halfText => .ok (some (.colon, around))
  | .flawed (.brokenText _ skipping) => .error skipping
  | _ => .error .malformed

/-- Pass over one piece inside open brackets. The answer is what is awaited then, or nothing if the
outermost value is complete. -/
def skipPiece (awaiting : Awaiting) (around : List Open) (p : Piece) :
    Except Fault (Option (Awaiting × List Open)) :=
  match awaiting, around, p with
  | .value, _, p => skipValuePiece around p
  | .valueOrEnd, .array :: outer, .sound .endArray => .ok (afterValue outer)
  | .valueOrEnd, _, p => skipValuePiece around p
  | .name, _, p => skipNamePiece around p
  | .nameOrEnd, .object :: outer, .sound .endObject => .ok (afterValue outer)
  | .nameOrEnd, _, p => skipNamePiece around p
  | .colon, _, .sound .colon => .ok (some (.value, around))
  | .separator, .array :: _, .sound .comma => .ok (some (.value, around))
  | .separator, .object :: _, .sound .comma => .ok (some (.name, around))
  | .separator, .array :: outer, .sound .endArray => .ok (afterValue outer)
  | .separator, .object :: outer, .sound .endObject => .ok (afterValue outer)
  | _, _, _ => .error .malformed

/-- Pass over the rest of a value inside open brackets. -/
def skipFrom (awaiting : Awaiting) (around : List Open) : Reader Unit
  | [] => .error .ended
  | p :: ps =>
    match skipPiece awaiting around p with
    | .error fault => .error fault
    | .ok none => .ok ((), ps)
    | .ok (some (awaiting, around)) => skipFrom awaiting around ps

/-- Pass over a value. Nesting is not limited here, and numbers out of range and halves of surrogate
pairs are let through. -/
def skip : Reader Unit := skipFrom .value []

/-! ## Whole documents -/

/-- The value that a whole text describes. -/
def run {α : Type} (reader : Nat → Reader α) (document : String) : Except Fault α :=
  match reader maxLevels (pieces document.toList) with
  | .error fault => .error fault
  | .ok (a, []) => .ok a
  | .ok (_, _ :: _) => .error .malformed

end Reader

end FieldFilter.Json
