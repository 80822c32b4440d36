import FieldFilter.Document.Value
import FieldFilter.Proofs.Decimal.Reading
import FieldFilter.Proofs.Document.Numbers
import FieldFilter.Proofs.Json.Nesting
import FieldFilter.Proofs.Json.Reading

/-!
# Values read back from documents

A written value takes one level, a written range two, which are the objects around one another in
it. Either is read back as it was written, except that a minus zero comes back as a zero, which is
the same number.
-/

namespace FieldFilter

open Json Json.Reader

namespace Value

/-- An object of a tag and some content is read as the value of that tag. -/
theorem reads_tagged {name : String} {tag : Tag} {content : Lexeme} {v : Value}
    (htag : tags.lookup name = some tag)
    (hcontent : ∀ n, Reads n 0 (readContent n tag) [content] v) (levels : Nat) :
    Reads levels 1 (read levels) (document.tagged name content) v := by
  have htype (n : Nat) :
      Reads n 0 (readMember n .nothing "type") [.colon, .text name] (.tag tag) :=
    (Reads.expect .colon).step ((Reads.choice htag).last (Reads.pure _))
  have hvalue (n : Nat) :
      Reads n 0 (readMember n (.tag tag) "value") [.colon, content] (.whole v) :=
    (Reads.expect .colon).step ((hcontent n).last (Reads.pure _))
  exact Reads.structured htype hvalue fun _ => Reads.pure v

/-- A written value is read back with its zero unsigned, and takes one level. -/
theorem reads (v : Value) (levels : Nat) :
    Reads levels 1 (read levels) v.document (v.mapNumbers .dropZeroSign) := by
  cases v with
  | identifier s =>
    have hcontent (n : Nat) : Reads n 0 (readContent n .identifier) [.text s] (identifier s) :=
      (Reads.text s).last (Reads.pure _)
    exact reads_tagged rfl hcontent levels
  | number d =>
    have hcontent (n : Nat) : Reads n 0 (readContent n .number) [.text d.toString]
        (number d.dropZeroSign) := by
      refine (Reads.next (.text d.toString)).last ?_
      simp only [d.readLenient?_toString]
      exact Reads.pure _
    exact reads_tagged rfl hcontent levels
  | boolean b =>
    have hcontent (n : Nat) : Reads n 0 (readContent n .boolean) [.boolean b] (boolean b) :=
      (Reads.boolean b).last (Reads.pure _)
    exact reads_tagged rfl hcontent levels
  | quoted s =>
    have hcontent (n : Nat) : Reads n 0 (readContent n .quoted) [.text s] (quoted s) :=
      (Reads.text s).last (Reads.pure _)
    exact reads_tagged rfl hcontent levels

/-- The document of a value is an object. -/
theorem head?_document (v : Value) : v.document.head? = some .beginObject := by
  cases v <;> rfl

/-- The lexemes of a value can be told apart in its spelling. -/
theorem legible_document (v : Value) : Legible v.document := by
  have htagged (name : String) {content : Lexeme} (h : content.isNumber = false) :
      Legible (document.tagged name content) :=
    Legible.object (by simpa using ⟨Legible.singleton rfl, Legible.singleton h⟩)
  cases v with
  | identifier | number | boolean | quoted => exact htagged _ rfl

/-- The document of a value has one level. -/
theorem nests_document (v : Value) : Nests 1 v.document := by
  have htagged (name : String) {content : Lexeme} (h : Nests 0 [content]) :
      Nests 1 (document.tagged name content) :=
    Nests.object [0, 0] (.cons (Nests.singleton fun _ => rfl) (.cons h .nil))
  cases v with
  | identifier | number | boolean | quoted => exact htagged _ (Nests.singleton fun _ => rfl)

end Value

namespace Range

/-- A written range is read back with its zeros unsigned, and takes two levels. -/
theorem reads (r : Range) (levels : Nat) :
    Reads levels 2 (read levels) r.document (r.mapNumbers .dropZeroSign) := by
  let lower := r.lower.mapNumbers .dropZeroSign
  let upper := r.upper.mapNumbers .dropZeroSign
  have hlower (n : Nat) : Reads n 1 (readMember n (none, none) "lower")
      (.colon :: r.lower.document) (some lower, none) :=
    ((r.lower.reads n).memberValue "lower").last (Reads.pure _)
  have hupper (n : Nat) : Reads n 1 (readMember n (some lower, none) "upper")
      (.colon :: r.upper.document) (some lower, some upper) :=
    ((r.upper.reads n).memberValue "upper").last (Reads.pure _)
  exact Reads.structured hlower hupper fun _ _ => rfl

/-- The document of a range is an object. -/
theorem head?_document (r : Range) : r.document.head? = some .beginObject := rfl

/-- So can those of a range, as it is with its two bounds. -/
theorem legible_document (r : Range) : Legible r.document :=
  Legible.object (by simpa using ⟨r.lower.legible_document, r.upper.legible_document⟩)

/-- The document of a range has one level more than its bounds. -/
theorem nests_document (r : Range) : Nests 2 r.document :=
  Nests.object [1, 1] (.cons r.lower.nests_document (.cons r.upper.nests_document .nil))

end Range

end FieldFilter
