import FieldFilter.Document.Predicate
import FieldFilter.Proofs.Document.Value

/-!
# Predicates read back from documents

How many objects and arrays a written predicate has around one another follows from its shape: one
for a constant and for each negation, two for each connective, three for a check and four for a
check of a range. A reader opens exactly these: a predicate that stays within the levels that a
reader grants is read back as an equal one, and any other is refused.
-/

namespace FieldFilter

open Json Json.Reader

/-- The levels that what a test compares with takes in a document. -/
def Test.levels : Test → Nat
  | within _ => 2
  | equals _ | fits _ | compares _ _ => 1

namespace Predicate

/-- The levels that a predicate takes in a document. -/
def levels : Predicate → Nat
  | check c => c.test.levels + 2
  | join _ left right => max left.levels right.levels + 2
  | not operand => operand.levels + 1
  | always _ => 1

end Predicate

/-! ## Patterns -/

/-- A written pattern is read back, and takes one level. -/
theorem Pattern.reads (p : Pattern) (levels : Nat) :
    Reads levels 1 (read levels) p.document p := by
  have hstyle : MatchStyle.names.lookup p.style.name = some p.style := by
    cases p.style <;> rfl
  have htext (n : Nat) : Reads n 0 (readMember n (none, none) "text") [.colon, .text p.text]
      (some p.text, none) := ((Reads.text p.text).memberValue "text").last (Reads.pure _)
  have hname (n : Nat) : Reads n 0 (readMember n (some p.text, none) "style")
      [.colon, .text p.style.name] (some p.text, some p.style) :=
    ((Reads.choice hstyle).memberValue "style").last (Reads.pure _)
  exact Reads.structured htext hname fun _ _ => rfl

theorem Pattern.legible_document (p : Pattern) : Legible p.document := by
  have htext (s : String) : Legible [.text s] := Legible.singleton rfl
  exact Legible.object (by simpa using ⟨htext _, htext _⟩)

theorem Pattern.nests_document (p : Pattern) : Nests 1 p.document := by
  have hmember (s : String) : Nests 0 [.text s] := Nests.singleton fun _ => rfl
  exact Nests.object [0, 0] (.cons (hmember _) (.cons (hmember _) .nil))

namespace Predicate

/-! ## Single forms -/

/-- Without levels left, no predicate is read. -/
theorem read_zero (s : List Piece) : read 0 (.sound .beginObject :: s) = .error .malformed := by
  rw [read]
  rfl

/-- A form is read by what reads its body with one level less. -/
theorem reads_opened {levels need : Nat} {name : String} {r : Nat → Reader Predicate}
    {body : List Lexeme} {p : Predicate}
    (hr : ∀ n s, read (n + 1)
      (.sound .beginObject :: .sound (.text name) :: .sound .colon :: s) = r n s)
    (h : ∀ n, Reads n need (r n) (body ++ [.endObject]) p) :
    Reads levels (need + 1) (read levels) (Writer.object [(name, body)]) p := by
  intro rest
  cases levels with
  | zero =>
    rw [if_neg (by omega)]
    exact read_zero _
  | succ n =>
    have hneed : need + 1 ≤ n + 1 ↔ need ≤ n := by omega
    simp only [hneed]
    exact (hr n _).trans (h n rest)

/-- Close the object around a predicate. -/
def close (p : Predicate) : Reader Predicate := do
  expect .endObject
  return p

/-- Behind the only member of a form there is nothing but the end of the object. -/
theorem reads_close (levels : Nat) (p : Predicate) :
    Reads levels 0 (close p) [.endObject] p :=
  (Reads.expect .endObject).last (Reads.pure p)

/-- A form whose body is read as the predicate itself. -/
theorem reads_form {levels need : Nat} {name : String} {r : Nat → Reader Predicate}
    {body : List Lexeme} {p : Predicate}
    (hr : ∀ n s, read (n + 1)
      (.sound .beginObject :: .sound (.text name) :: .sound .colon :: s) = (r n >>= close) s)
    (h : ∀ n, Reads n need (r n) body p) :
    Reads levels (need + 1) (read levels) (Writer.object [(name, body)]) p := by
  refine reads_opened hr fun n => ?_
  have hall := (h n).bind (reads_close n p)
  rwa [Nat.max_zero] at hall

/-! ## Checks -/

/-- A check is read from the array of its field and what follows it. -/
theorem reads_readCheck {levels need : Nat} {test : Nat → Reader Test} {field : String}
    {ls : List Lexeme} {t : Test} (h : ∀ n, Reads n need (test n) ls t) :
    Reads levels (need + 1) (readCheck levels test)
      (.beginArray :: (.text field :: ls ++ [.endArray])) (check ⟨field, t⟩) := by
  refine Reads.tuple fun n => ?_
  have hfield : Reads n 0 (element true text) [.text field] field :=
    Reads.element rfl (by simp) (Reads.text field)
  exact hfield.step ((h n).last (Reads.pure _))

/-- A written check is read back with its zeros unsigned. -/
theorem reads_check (field : String) (t : Test) (levels : Nat) :
    Reads levels (t.levels + 2) (read levels) (document (check ⟨field, t⟩))
      (check ⟨field, t.mapNumbers .dropZeroSign⟩) := by
  cases t with
  | equals v =>
    have htest (n : Nat) : Reads n 1 (do return .equals (← element false (Value.read n)))
        (.comma :: v.document) (Test.equals (v.mapNumbers .dropZeroSign)) :=
      (Reads.laterElement v.head?_document (by simp) (v.reads n)).last (Reads.pure _)
    refine reads_form ?_ fun n => reads_readCheck htest
    intro n s
    rw [read]
    rfl
  | within r =>
    have htest (n : Nat) : Reads n 2 (do return .within (← element false (Range.read n)))
        (.comma :: r.document) (Test.within (r.mapNumbers .dropZeroSign)) :=
      (Reads.laterElement r.head?_document (by simp) (r.reads n)).last (Reads.pure _)
    refine reads_form ?_ fun n => reads_readCheck htest
    intro n s
    rw [read]
    rfl
  | fits p =>
    have htest (n : Nat) : Reads n 1 (do return .fits (← element false (Pattern.read n)))
        (.comma :: p.document) (Test.fits p) :=
      (Reads.laterElement (l := .beginObject) rfl (by simp) (p.reads n)).last (Reads.pure _)
    refine reads_form ?_ fun n => reads_readCheck htest
    intro n s
    rw [read]
    rfl
  | compares op v =>
    have hop : Comparison.names.lookup op.name = some op := by cases op <;> rfl
    have htest (n : Nat) : Reads n 1 (do
        let op ← element false (choice n Comparison.names)
        return .compares op (← element false (Value.read n)))
        (.comma :: .text op.name :: .comma :: v.document)
        (Test.compares op (v.mapNumbers .dropZeroSign)) := by
      have hname : Reads n 0 (element false (choice n Comparison.names))
          [.comma, .text op.name] op := Reads.laterElement rfl (by simp) (Reads.choice hop)
      have hvalue := Reads.laterElement v.head?_document (by simp) (v.reads n)
      exact hname.step (hvalue.last (Reads.pure _))
    refine reads_form ?_ fun n => reads_readCheck htest
    intro n s
    rw [read]
    rfl

/-! ## Whole predicates -/

/-- The document of a predicate is an object in any form. -/
theorem head?_document (p : Predicate) : p.document.head? = some .beginObject := by
  cases p with
  | check c => rcases c with ⟨_, _ | _ | _ | _⟩ <;> rfl
  | join c _ _ => cases c <;> rfl
  | not | always => rfl

/-- The name of a connective in documents. -/
def formName : Connective → String
  | .or => "or"
  | .and => "and"

/-- Both connectives are written as an array of two under their names. -/
theorem document_join (c : Connective) (left right : Predicate) :
    document (join c left right) =
      Writer.object [(formName c, Writer.array [left.document, right.document])] := by
  cases c <;> rfl

/-- A written pair is read back from its two sides. -/
theorem reads_join {left right l r : Predicate} {nl nr : Nat} (c : Connective)
    (hl : ∀ n, Reads n nl (read n) left.document l)
    (hr : ∀ n, Reads n nr (read n) right.document r) (levels : Nat) :
    Reads levels (max nl nr + 2) (read levels) (document (join c left right)) (join c l r) := by
  rw [document_join]
  let finish (left right : Predicate) : Reader Predicate := do
    expect .endArray
    let p ← pure (join c left right)
    close p
  let sides (n : Nat) : Reader Predicate := do
    let left ← element true (read n)
    let right ← element false (read n)
    finish left right
  have hsides (n : Nat) : Reads n (max nl nr) (sides n)
      (left.document ++ (.comma :: right.document ++ [.endArray, .endObject])) (join c l r) := by
    have hend : Reads n 0 (finish l r) [.endArray, .endObject] (join c l r) :=
      (Reads.expect .endArray).step ((Reads.pure _).step (reads_close n _))
    have hleft := Reads.element left.head?_document (by simp) (hl n)
    have hright := Reads.laterElement right.head?_document (by simp) (hr n)
    have hrest := hright.bind hend
    rw [Nat.max_zero] at hrest
    exact hleft.bind hrest
  let body (n : Nat) : Reader Predicate := fun s =>
    read (n + 1) (.sound .beginObject :: .sound (.text (formName c)) :: .sound .colon :: s)
  refine reads_opened (r := body) (fun _ _ => rfl) fun n => ?_
  have harray : Writer.array [left.document, right.document] ++ [.endObject] =
      .beginArray :: (left.document ++ (.comma :: right.document ++ [.endArray, .endObject])) := by
    simp [Writer.array, Writer.separate]
  rw [harray]
  refine Reads.opened (r := body) sides ?_ ?_ hsides
  · intro s
    cases c <;> (simp only [body]; rw [read]; rfl)
  · intro n s
    cases c <;> (simp only [body]; rw [read]; rfl)

/-- A written predicate is read back with its zeros unsigned, and takes as many levels as its shape
says. -/
theorem reads (p : Predicate) (levels : Nat) :
    Reads levels p.levels (read levels) p.document (p.mapNumbers .dropZeroSign) := by
  induction p generalizing levels with
  | check c => exact reads_check c.field c.test levels
  | join c left right ihl ihr => exact reads_join c ihl ihr levels
  | not operand ih =>
    refine reads_form ?_ fun n => (ih n).map not
    intro n s
    rw [read]
    rfl
  | always b =>
    refine reads_form ?_ fun n => (Reads.boolean b).map always
    intro n s
    rw [read]
    rfl

theorem legible_document (p : Predicate) : Legible p.document := by
  have htext (s : String) : Legible [.text s] := Legible.singleton rfl
  have hform (name : String) {body : List Lexeme} (h : Legible body) :
      Legible (Writer.object [(name, body)]) := Legible.object (by simpa using h)
  have hcheck (field : String) {body : List Lexeme} (h : Legible body) :
      Legible (Writer.array [[.text field], body]) := Legible.array (by simpa using ⟨htext _, h⟩)
  induction p with
  | check c =>
    obtain ⟨field, t⟩ := c
    cases t with
    | equals v => exact hform _ (hcheck field v.legible_document)
    | within r => exact hform _ (hcheck field r.legible_document)
    | fits p => exact hform _ (hcheck field p.legible_document)
    | compares op v =>
      exact hform _ (Legible.array (by simpa using ⟨htext _, htext _, v.legible_document⟩))
  | join c left right ihl ihr =>
    rw [document_join]
    exact hform _ (Legible.array (by simpa using ⟨ihl, ihr⟩))
  | not operand ih => exact hform _ ih
  | always b => exact hform _ (Legible.singleton rfl)

/-- The compact text of a predicate is read back with its zeros unsigned if its levels are not more
than a document may have, and is malformed otherwise. -/
theorem ofJson_toJson (p : Predicate) :
    ofJson p.toJson =
      if p.levels ≤ maxLevels then .ok (p.mapNumbers .dropZeroSign) else .error .malformed :=
  run_spell p.legible_document (p.reads maxLevels)

/-! ## Nesting and round trips -/

/-- A form adds one object to what its body nests. -/
theorem nests_form (name : String) {n : Nat} {body : List Lexeme} (h : Nests n body) :
    Nests (n + 1) (Writer.object [(name, body)]) := by
  have hobject : Nests (max n 0 + 1) (Writer.object [(name, body)]) :=
    Nests.object [n] (.cons h .nil)
  rwa [Nat.max_zero] at hobject

/-- A check adds an object and the array of its field and of what it compares with. -/
theorem nests_check (field : String) (t : Test) :
    Nests (t.levels + 2) (document (check ⟨field, t⟩)) := by
  have htext (s : String) : Nests 0 [.text s] := Nests.singleton fun _ => rfl
  cases t with
  | equals v =>
    exact nests_form _ (Nests.array [0, 1] (.cons (htext field) (.cons v.nests_document .nil)))
  | within r =>
    exact nests_form _ (Nests.array [0, 2] (.cons (htext field) (.cons r.nests_document .nil)))
  | fits p =>
    exact nests_form _ (Nests.array [0, 1] (.cons (htext field) (.cons p.nests_document .nil)))
  | compares op v =>
    exact nests_form _ (Nests.array [0, 0, 1]
      (.cons (htext field) (.cons (htext op.name) (.cons v.nests_document .nil))))

/-- The levels of a predicate are the nesting of its document. -/
theorem nests_document (p : Predicate) : Nests p.levels p.document := by
  induction p with
  | check c => exact nests_check c.field c.test
  | join c left right ihl ihr =>
    have harray : Nests (max left.levels (max right.levels 0) + 1)
        (Writer.array [left.document, right.document]) :=
      Nests.array [left.levels, right.levels] (.cons ihl (.cons ihr .nil))
    rw [Nat.max_zero] at harray
    rw [document_join]
    exact nests_form _ harray
  | not operand ih => exact nests_form _ ih
  | always b => exact nests_form _ (Nests.singleton fun _ => rfl)

/-- A predicate is read back from its text exactly if no more than 127 objects and arrays stand
around one another in it, as many as its shape says. What is read back then has the same shape, with
every text in its own spelling and every number in its own scale; only a minus zero has become a
zero, so that the predicate is equal to the one that was written. Any other text is refused. -/
theorem faithful_toJson (p : Predicate) :
    nesting p.document = p.levels ∧
    ofJson p.toJson =
      (if nesting p.document ≤ 127 then .ok (p.mapNumbers .dropZeroSign)
        else .error .malformed) ∧
    (p.mapNumbers .dropZeroSign).alike p = true ∧
    (p.mapNumbers .dropZeroSign).numbers.map Decimal.scale = p.numbers.map Decimal.scale := by
  have hnesting : nesting p.document = p.levels := p.nests_document.nesting_eq
  have halike : (p.mapNumbers .dropZeroSign).alike p = true :=
    p.alike_mapNumbers Decimal.compare_dropZeroSign
  refine ⟨hnesting, ?_, halike, ?_⟩
  · rw [hnesting]
    exact p.ofJson_toJson
  · rw [numbers_mapNumbers, List.map_map]
    apply List.map_congr_left
    intro d _
    exact d.scale_dropZeroSign

end Predicate

end FieldFilter
