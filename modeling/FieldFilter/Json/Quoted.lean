import FieldFilter.Json.Fault
import FieldFilter.Text.Utf8

/-!
# Text in documents

Text in a document stands between double quotes; quotes, backslashes and control characters inside
it are escaped. `encode` writes it. `scan` reads it from just behind the opening quote and tells how
it ends. A text may be well formed as a stretch of the document and yet spell no characters,
because it holds half of a surrogate pair; such a text can be passed over but not be read.
-/

namespace FieldFilter.Json.Quoted

/-- The character of a hexadecimal digit below sixteen. -/
def hexChar (d : Nat) : Char :=
  if d < 10 then Char.ofNat ('0'.toNat + d) else Char.ofNat ('a'.toNat + (d - 10))

/-- A character as it is written between quotes. -/
def encodeChar (c : Char) : List Char :=
  if c = '"' then ['\\', '"']
  else if c = '\\' then ['\\', '\\']
  else if c = '\x08' then ['\\', 'b']
  else if c = '\x0c' then ['\\', 'f']
  else if c = '\n' then ['\\', 'n']
  else if c = '\r' then ['\\', 'r']
  else if c = '\t' then ['\\', 't']
  else if c.toNat < 0x20 then
    ['\\', 'u', '0', '0', hexChar (c.toNat / 16), hexChar (c.toNat % 16)]
  else [c]

/-- A text as it is written, with its quotes. -/
def encode (cs : List Char) : List Char := '"' :: cs.flatMap encodeChar ++ ['"']

/-- The value of a hexadecimal digit. -/
def hexDigit? (c : Char) : Option Nat :=
  if c.isDigit then some (c.toNat - '0'.toNat)
  else if 'a' ≤ c ∧ c ≤ 'f' then some (c.toNat - 'a'.toNat + 10)
  else if 'A' ≤ c ∧ c ≤ 'F' then some (c.toNat - 'A'.toNat + 10)
  else none

/-- The value of four hexadecimal digits. -/
def hexValue? (a b c d : Char) : Option Nat := do
  return ((← hexDigit? a) * 16 + (← hexDigit? b)) * 256 + (← hexDigit? c) * 16 + (← hexDigit? d)

/-- The character that a backslash and another character stand for. -/
def shortEscape? : Char → Option Char
  | '"' => some '"'
  | '\\' => some '\\'
  | '/' => some '/'
  | 'b' => some '\x08'
  | 'f' => some '\x0c'
  | 'n' => some '\n'
  | 'r' => some '\r'
  | 't' => some '\t'
  | _ => none

/-- Whether a code is the first half of a surrogate pair. -/
def isLeading (code : Nat) : Bool := 0xD800 ≤ code && code < 0xDC00

/-- Whether a code is the second half of a surrogate pair. -/
def isTrailing (code : Nat) : Bool := 0xDC00 ≤ code && code < 0xE000

/-- The character of a surrogate pair. -/
def pairChar (leading trailing : Nat) : Char :=
  Char.ofNat ((leading - 0xD800) * 0x400 + (trailing - 0xDC00) + 0x10000)

/-- How a quoted text ends. -/
inductive Ending where
  /-- At a closing quote, with its characters if it spells any, before some rest. -/
  | closed (content : Option (List Char)) (rest : List Char)
  /-- Without one. The faults are those of reading the text and of passing over it. -/
  | broken (reading skipping : Fault)
  deriving DecidableEq, Repr

/-- The ending of a text with one more character in front. -/
def Ending.push (c : Char) : Ending → Ending
  | closed content rest => closed (content.map (c :: ·)) rest
  | e => e

/-- The ending of a text with half of a surrogate pair in front. -/
def Ending.spoil : Ending → Ending
  | closed _ rest => closed none rest
  | broken _ skipping => broken .malformed skipping

/-- Text that stops where four hexadecimal digits are needed: it has ended if fewer than four bytes
are left. -/
def brokenEscape (rest : List Char) : Ending :=
  let fault := if utf8Length rest < 4 then Fault.ended else .malformed
  .broken fault fault

/-- The ending of a text with something in front that does not complete a pair, if one is open. -/
def Ending.afterHalf (half : Option Nat) (e : Ending) : Ending :=
  match half with
  | none => e
  | some _ => e.spoil

/-- The ending of a text with an escaped code in front, after the first half of a pair if one is
open; the ending is given for either case of the code opening a pair in turn. -/
def Ending.pushCode (half : Option Nat) (code : Nat) (e : Option Nat → Ending) : Ending :=
  match half with
  | some leading =>
    if isTrailing code then (e none).push (pairChar leading code) else (e none).spoil
  | none =>
    if isTrailing code then (e none).spoil
    else if isLeading code then e (some code)
    else (e none).push (Char.ofNat code)

/-- Read a quoted text from behind its opening quote, or from behind the first half of a surrogate
pair. -/
def scan (half : Option Nat) : List Char → Ending
  | [] => .broken .ended .ended
  | '"' :: rest => (Ending.closed (some []) rest).afterHalf half
  | ['\\'] => .broken .ended .ended
  | '\\' :: 'u' :: a :: b :: c :: d :: rest =>
    match hexValue? a b c d with
    | none => .broken .malformed .malformed
    | some code => .pushCode half code fun half => scan half rest
  | '\\' :: 'u' :: rest => brokenEscape rest
  | '\\' :: c :: rest =>
    match shortEscape? c with
    | none => .broken .malformed .malformed
    | some e => ((scan none rest).push e).afterHalf half
  | c :: rest =>
    if c.toNat < 0x20 then .broken .malformed .malformed
    else ((scan none rest).push c).afterHalf half

/-- The characters that follow a closed text. -/
def Ending.rest : Ending → List Char
  | closed _ rest => rest
  | broken _ _ => []

@[simp] theorem Ending.rest_push (c : Char) (e : Ending) : (e.push c).rest = e.rest := by
  cases e <;> rfl

@[simp] theorem Ending.rest_spoil (e : Ending) : e.spoil.rest = e.rest := by
  cases e <;> rfl

@[simp] theorem Ending.rest_afterHalf (half : Option Nat) (e : Ending) :
    (e.afterHalf half).rest = e.rest := by
  cases half <;> simp [afterHalf]

/-- What follows a quoted text is no longer than what the text was read from. -/
theorem length_rest_scan_le (half : Option Nat) (cs : List Char) :
    (scan half cs).rest.length ≤ cs.length := by
  fun_induction scan half cs with
  | case1 | case3 | case4 => simp [Ending.rest]
  | case2 =>
    rw [Ending.rest_afterHalf]
    simp [Ending.rest]
  | case5 half a b c d rest code _ ih =>
    have hn := ih none
    have hs := ih (some code)
    simp only [Ending.pushCode, List.length_cons]
    split
    · split <;> simp <;> omega
    · split
      · simp; omega
      · split <;> simp <;> omega
  | case6 => simp [brokenEscape, Ending.rest]
  | case7 => simp [Ending.rest]
  | case8 half c rest _ e _ ih => simp; omega
  | case9 => simp [Ending.rest]
  | case10 half c rest _ _ _ ih => simp; omega

end FieldFilter.Json.Quoted
