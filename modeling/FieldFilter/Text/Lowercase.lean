import FieldFilter.Text.CaseRanges
import FieldFilter.Text.LowercaseRuns

/-!
# Lower-casing text

The full lower-case form of a text. Every character is mapped on its own, with two exceptions: a
dotted capital I becomes a small i and a combining dot, and a capital sigma takes its final form
where it ends a word, that is, where a letter stands before it and none after it, marks passed
over.
-/

namespace FieldFilter

/-- Whether the first character that is not passed over has case. -/
def leadsToCased (cs : List Char) : Bool :=
  match cs.dropWhile isCaseIgnorable with
  | [] => false
  | c :: _ => isCased c

/-- The lower-case form of a capital sigma between two texts, the first of them in reverse. -/
def lowercaseSigma (before after : List Char) : Char :=
  if leadsToCased before && !leadsToCased after then 'ς' else 'σ'

/-- The lower-case form of a character between two texts, the first of them in reverse. -/
def lowercaseAt (before : List Char) (c : Char) (after : List Char) : List Char :=
  if c = 'Σ' then [lowercaseSigma before after]
  else if c = 'İ' then ['i', '\u0307']
  else [lowercaseChar c]

/-- The lower-case form of a text that follows another, given in reverse. -/
def lowercaseAfter (before : List Char) : List Char → List Char
  | [] => []
  | c :: cs => lowercaseAt before c cs ++ lowercaseAfter (c :: before) cs

/-- The lower-case form of a text. -/
def lowercase (cs : List Char) : List Char := lowercaseAfter [] cs

end FieldFilter
