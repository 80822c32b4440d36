import FieldFilter.Json.Number
import FieldFilter.Json.Quoted

/-!
# Lexemes of a document

A document is a run of brackets, separators, literals, numbers and texts. What writes a document
produces lexemes, whose spellings in a row are its compact text; what reads one consumes pieces, a
piece being either a lexeme or a flaw. A flaw keeps two faults, because a part of a document that
nobody asks for is passed over by laxer rules than those by which it would be read.
-/

namespace FieldFilter.Json

/-- A well-formed part of a document. -/
inductive Lexeme where
  | beginObject
  | endObject
  | beginArray
  | endArray
  | colon
  | comma
  | null
  | boolean (value : Bool)
  | number (value : Number)
  | text (content : String)
  deriving DecidableEq, Repr

/-- The characters of a lexeme. -/
def Lexeme.toList : Lexeme → List Char
  | beginObject => ['\x7b']
  | endObject => ['\x7d']
  | beginArray => ['[']
  | endArray => [']']
  | colon => [':']
  | comma => [',']
  | null => ['n', 'u', 'l', 'l']
  | boolean true => ['t', 'r', 'u', 'e']
  | boolean false => ['f', 'a', 'l', 's', 'e']
  | number n => n.toList
  | text s => Quoted.encode s.toList

/-- The compact text of a row of lexemes. -/
def Lexeme.spell (ls : List Lexeme) : String := String.ofList (ls.flatMap Lexeme.toList)

/-- A part of a document that is not well formed, or cannot be read. -/
inductive Flaw where
  /-- A number out of range. It can be passed over. -/
  | hugeNumber
  /-- A text with half of a surrogate pair. It can be passed over. -/
  | halfText
  /-- A text that breaks off or breaks the grammar. -/
  | brokenText (reading skipping : Fault)
  /-- A literal that starts like a null but is none. -/
  | brokenNull (fault : Fault)
  /-- Anything else that breaks off or breaks the grammar. -/
  | broken (reading skipping : Fault)
  deriving DecidableEq, Repr

/-- The fault of reading a flawed part. -/
def Flaw.fault : Flaw → Fault
  | hugeNumber | halfText => .malformed
  | brokenText reading _ | brokenNull reading | broken reading _ => reading

/-- A part of a document. -/
inductive Piece where
  | sound (lexeme : Lexeme)
  | flawed (flaw : Flaw)
  deriving DecidableEq, Repr

namespace Piece

/-- The characters between pieces. -/
def isBlank (c : Char) : Bool := c == ' ' || c == '\t' || c == '\n' || c == '\r'

/-- A literal word at the front of a text that starts with its first letter, or the flaw that the
word breaks off or goes on otherwise. -/
def literal (lexeme : Lexeme) (flaw : Fault → Flaw) (cs : List Char) : Piece × List Char :=
  let word := lexeme.toList
  if word.isPrefixOf cs then (.sound lexeme, cs.drop word.length)
  else (.flawed (flaw (if cs.isPrefixOf word then .ended else .malformed)), [])

/-- A number at the front of a text. Passing over a broken number, one does not tell a text that
ends from one that goes wrong. -/
def number (cs : List Char) : Piece × List Char :=
  match Numeral.take cs with
  | .error fault => (.flawed (.broken fault .malformed), [])
  | .ok (numeral, rest) =>
    match numeral.number? with
    | some n => (.sound (.number n), rest)
    | none => (.flawed .hugeNumber, rest)

/-- A text at the front of a text, from behind its opening quote. -/
def quoted (cs : List Char) : Piece × List Char :=
  match Quoted.scan none cs with
  | .closed (some content) rest => (.sound (.text (String.ofList content)), rest)
  | .closed none rest => (.flawed .halfText, rest)
  | .broken reading skipping => (.flawed (.brokenText reading skipping), [])

/-- The first piece of a text that starts with `c`, which is not blank, and what follows it. Nothing
follows a piece that breaks the text. -/
def first (c : Char) (cs : List Char) : Piece × List Char :=
  match c with
  | '\x7b' => (.sound .beginObject, cs)
  | '\x7d' => (.sound .endObject, cs)
  | '[' => (.sound .beginArray, cs)
  | ']' => (.sound .endArray, cs)
  | ':' => (.sound .colon, cs)
  | ',' => (.sound .comma, cs)
  | 'n' => literal .null .brokenNull (c :: cs)
  | 't' => literal (.boolean true) (fun fault => .broken fault fault) (c :: cs)
  | 'f' => literal (.boolean false) (fun fault => .broken fault fault) (c :: cs)
  | '"' => quoted cs
  | c =>
    if c == '-' || c.isDigit then number (c :: cs)
    else (.flawed (.broken .malformed .malformed), [])

/-! ## Each piece takes something -/

/-- A literal takes at least its first character, whether it is spelled right or not. -/
theorem length_rest_literal_lt {lexeme : Lexeme} (h : lexeme.toList ≠ []) (flaw : Fault → Flaw)
    (c : Char) (cs : List Char) :
    (literal lexeme flaw (c :: cs)).2.length < (c :: cs).length := by
  have := List.length_pos_iff.2 h
  simp only [literal]
  split
  · simp only [List.length_drop, List.length_cons]
    omega
  · simp

/-- So does a number. -/
theorem length_rest_number_lt (c : Char) (cs : List Char) :
    (number (c :: cs)).2.length < (c :: cs).length := by
  unfold number
  split
  · simp
  · rename_i h
    split <;> exact Numeral.length_lt_of_take h

/-- A quoted text puts nothing back. -/
theorem length_rest_quoted_le (cs : List Char) : (quoted cs).2.length ≤ cs.length := by
  have h := Quoted.length_rest_scan_le none cs
  unfold quoted
  split <;> rename_i he
  · rw [he] at h
    exact h
  · rw [he] at h
    exact h
  · simp

/-- What follows a piece is shorter than the text that starts with it. -/
theorem length_rest_first_lt (c : Char) (cs : List Char) :
    (first c cs).2.length < (c :: cs).length := by
  unfold first
  split <;> try exact Nat.lt_succ_self _
  · exact length_rest_literal_lt (by simp [Lexeme.toList]) _ _ _
  · exact length_rest_literal_lt (by simp [Lexeme.toList]) _ _ _
  · exact length_rest_literal_lt (by simp [Lexeme.toList]) _ _ _
  · exact Nat.lt_succ_of_le (length_rest_quoted_le cs)
  · split
    · exact length_rest_number_lt _ _
    · simp

end Piece

/-- The pieces of a document. -/
def pieces (cs : List Char) : List Piece :=
  match _h : cs.dropWhile Piece.isBlank with
  | [] => []
  | c :: rest => (Piece.first c rest).1 :: pieces (Piece.first c rest).2
termination_by cs.length
decreasing_by
  have hd := (List.dropWhile_sublist (l := cs) Piece.isBlank).length_le
  have := Piece.length_rest_first_lt c rest
  rw [_h] at hd
  omega

end FieldFilter.Json
