/-!
# Blank text

A text is blank when all of its characters are Unicode white space. The property covers more than
the layout between tokens: vertical tabs, no-break spaces and the spaces of many widths are blank,
while a zero-width space or a byte order mark is not.
-/

namespace FieldFilter

/-- The ranges of white-space code points, first and last included. -/
def blankRanges : List (Nat × Nat) :=
  [(0x09, 0x0D), (0x20, 0x20), (0x85, 0x85), (0xA0, 0xA0), (0x1680, 0x1680), (0x2000, 0x200A),
    (0x2028, 0x2029), (0x202F, 0x202F), (0x205F, 0x205F), (0x3000, 0x3000)]

/-- Whether a character is white space. -/
def isBlankChar (c : Char) : Bool :=
  blankRanges.any fun (first, last) => decide (first ≤ c.toNat) && decide (c.toNat ≤ last)

/-- Whether a text has nothing but white space in it. -/
def isBlank (text : String) : Bool := text.toList.all isBlankChar

end FieldFilter
