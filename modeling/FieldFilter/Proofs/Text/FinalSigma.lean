import FieldFilter.Text.Lowercase
import Mathlib.Data.List.TakeWhile

/-!
# Lower-casing a part of a text

Characters are lower-cased one by one, and only a capital sigma looks at its neighbours. So a part
of a text has the same lower-case form there as on its own, unless one of its sigmas sees another
letter there than it sees alone. Letters are seen past marks, and no further than to the next
character that is not a mark. So what counts are two sigmas: one at the end of the part that is
final until a letter follows the part, and one at its beginning that is not final until a letter
stands before the part.
-/

namespace FieldFilter

/-! ## Neighbouring letters -/

/-- Whether a text has only characters that are passed over when looking for a letter. -/
def isMarks (cs : List Char) : Bool := cs.all isCaseIgnorable

section Letters

variable {as : List Char}

/-- Marks are passed over on the way to a letter. -/
theorem leadsToCased_append_of_isMarks (h : isMarks as = true) (bs : List Char) :
    leadsToCased (as ++ bs) = leadsToCased bs := by
  have hdrop : as.dropWhile isCaseIgnorable = [] :=
    List.dropWhile_eq_nil_iff.2 (List.all_eq_true.1 h)
  rw [leadsToCased, leadsToCased, List.dropWhile_append, hdrop]
  rfl

/-- What is no mark decides whether a letter comes next. -/
theorem leadsToCased_append_of_not_isMarks (h : isMarks as = false) (bs : List Char) :
    leadsToCased (as ++ bs) = leadsToCased as := by
  rw [leadsToCased, leadsToCased, List.dropWhile_append]
  cases hdrop : as.dropWhile isCaseIgnorable with
  | nil =>
    have hmarks : isMarks as = true := List.all_eq_true.2 (List.dropWhile_eq_nil_iff.1 hdrop)
    rw [hmarks] at h
    cases h
  | cons c cs => rfl

/-- Marks alone do not lead to a letter. -/
theorem leadsToCased_of_isMarks (h : isMarks as = true) : leadsToCased as = false := by
  rw [← List.append_nil as, leadsToCased_append_of_isMarks h]
  rfl

end Letters

/-- A sigma has another form between two longer texts than between two shorter ones in two cases: it
is final in the shorter ones, and a letter follows with the longer ones; or it is not final in the
shorter ones for want of a letter before it, and a letter stands before it in the longer ones. -/
theorem lowercaseSigma_append_eq_iff (b a x y : List Char) :
    lowercaseSigma (b ++ x) (a ++ y) = lowercaseSigma b a ↔
      ¬(leadsToCased b = true ∧ isMarks a = true ∧ leadsToCased y = true ∨
        isMarks b = true ∧ leadsToCased (a ++ y) = false ∧ leadsToCased x = true) := by
  have hforms : 'ς' ≠ 'σ' := by decide
  unfold lowercaseSigma
  cases hb : isMarks b <;> cases ha : isMarks a
  · rw [leadsToCased_append_of_not_isMarks hb, leadsToCased_append_of_not_isMarks ha]
    simp
  · rw [leadsToCased_append_of_not_isMarks hb, leadsToCased_append_of_isMarks ha,
      leadsToCased_of_isMarks ha]
    cases leadsToCased b <;> cases leadsToCased y <;> simp [hforms.symm]
  · rw [leadsToCased_append_of_isMarks hb, leadsToCased_append_of_not_isMarks ha,
      leadsToCased_of_isMarks hb]
    cases leadsToCased x <;> cases leadsToCased a <;> simp [hforms]
  · rw [leadsToCased_append_of_isMarks hb, leadsToCased_append_of_isMarks ha,
      leadsToCased_of_isMarks hb, leadsToCased_of_isMarks ha]
    cases leadsToCased x <;> cases leadsToCased y <;> simp [hforms]

/-! ## Parts of a text -/

/-- The lower-case form of a text between two others, the first of them in reverse. -/
def lowercaseBetween (before after : List Char) : List Char → List Char
  | [] => []
  | c :: cs => lowercaseAt before c (cs ++ after) ++ lowercaseBetween (c :: before) after cs

theorem lowercaseBetween_nil (before cs : List Char) :
    lowercaseBetween before [] cs = lowercaseAfter before cs := by
  induction cs generalizing before with
  | nil => rfl
  | cons c cs ih => rw [lowercaseBetween, lowercaseAfter, List.append_nil, ih]

/-- A text is lower-cased piece by piece, each with the others around it in view. -/
theorem lowercaseAfter_append (before as bs : List Char) :
    lowercaseAfter before (as ++ bs) =
      lowercaseBetween before bs as ++ lowercaseAfter (as.reverse ++ before) bs := by
  induction as generalizing before with
  | nil => rfl
  | cons c cs ih =>
    rw [List.cons_append, lowercaseAfter, ih, lowercaseBetween, List.append_assoc,
      List.reverse_cons, List.append_assoc]
    rfl

/-- A text of three parts is lower-cased part by part, each between the two others. -/
theorem lowercase_append_append (x cs y : List Char) :
    lowercase (x ++ cs ++ y) = lowercaseBetween [] (cs ++ y) x ++
      lowercaseBetween x.reverse y cs ++ lowercaseAfter (cs.reverse ++ x.reverse) y := by
  rw [lowercase, List.append_assoc, lowercaseAfter_append, List.append_nil, lowercaseAfter_append,
    List.append_assoc]

/-- How many characters the lower-case form of a character has does not depend on its neighbours. -/
theorem length_lowercaseAt (before before' : List Char) (c : Char) (after after' : List Char) :
    (lowercaseAt before c after).length = (lowercaseAt before' c after').length := by
  unfold lowercaseAt
  split
  · rfl
  · rfl

/-- What is around a text does not change the length of its lower-case form. -/
theorem length_lowercaseBetween (before before' after after' cs : List Char) :
    (lowercaseBetween before after cs).length = (lowercaseBetween before' after' cs).length := by
  induction cs generalizing before before' with
  | nil => rfl
  | cons c cs ih =>
    rw [lowercaseBetween, lowercaseBetween, List.length_append, List.length_append,
      length_lowercaseAt before before' c (cs ++ after) (cs ++ after'),
      ih (c :: before) (c :: before')]

/-- A character has the same lower-case form between other neighbours, unless it is a sigma that has
another form there. -/
theorem lowercaseAt_eq_iff {before before' : List Char} {c : Char} {after after' : List Char} :
    lowercaseAt before c after = lowercaseAt before' c after' ↔
      (c = 'Σ' → lowercaseSigma before after = lowercaseSigma before' after') := by
  unfold lowercaseAt
  by_cases hc : c = 'Σ'
  · simp [hc]
  · simp [hc]

/-- A text has the same lower-case form in longer surroundings exactly if all its sigmas have. -/
theorem lowercaseBetween_append_eq_iff (before x y cs : List Char) :
    lowercaseBetween (before ++ x) y cs = lowercaseBetween before [] cs ↔
      ∀ b a, cs = b ++ 'Σ' :: a →
        lowercaseSigma (b.reverse ++ before ++ x) (a ++ y) =
          lowercaseSigma (b.reverse ++ before) a := by
  induction cs generalizing before with
  | nil => simp [lowercaseBetween]
  | cons c cs ih =>
    have hlength : (lowercaseAt (before ++ x) c (cs ++ y)).length =
        (lowercaseAt before c (cs ++ [])).length := length_lowercaseAt _ _ _ _ _
    have hsplit : lowercaseBetween (before ++ x) y (c :: cs) =
          lowercaseBetween before [] (c :: cs) ↔
        lowercaseAt (before ++ x) c (cs ++ y) = lowercaseAt before c (cs ++ []) ∧
          lowercaseBetween (c :: before ++ x) y cs = lowercaseBetween (c :: before) [] cs :=
      ⟨fun h => List.append_inj h hlength, fun h => congrArg₂ (· ++ ·) h.1 h.2⟩
    rw [hsplit, ih, lowercaseAt_eq_iff, List.append_nil]
    constructor
    · rintro ⟨hfirst, hrest⟩ b a h
      cases b with
      | nil =>
        obtain ⟨rfl, rfl⟩ := List.cons.inj h
        exact hfirst rfl
      | cons d b =>
        obtain ⟨rfl, rfl⟩ := List.cons.inj h
        simpa using hrest b a rfl
    · intro h
      refine ⟨?_, ?_⟩
      · rintro rfl
        exact h [] cs rfl
      · rintro b a rfl
        simpa using h (c :: b) a rfl

/-! ## Sigmas at the ends -/

/-- The text ends, but for marks, in a capital sigma that a letter stands before. -/
def ClosesInSigma (cs : List Char) : Prop :=
  ∃ b a, cs = b ++ 'Σ' :: a ∧ leadsToCased b.reverse = true ∧ isMarks a = true

/-- The text begins, but for marks, with a capital sigma that no letter follows, in the text itself
or in the one behind it. -/
def OpensInSigma (cs after : List Char) : Prop :=
  ∃ b a, cs = b ++ 'Σ' :: a ∧ isMarks b = true ∧ leadsToCased (a ++ after) = false

/-- A sigma of the text has another form between two texts than in the text alone: the closing one
because a letter follows, or the opening one because a letter stands before it. -/
def Reshaped (before cs after : List Char) : Prop :=
  ClosesInSigma cs ∧ leadsToCased after = true ∨
    OpensInSigma cs after ∧ leadsToCased before.reverse = true

/-- A text has the lower-case form between two texts that it has alone, unless it is reshaped. -/
theorem lowercaseBetween_eq_lowercase_iff (x y cs : List Char) :
    lowercaseBetween x.reverse y cs = lowercase cs ↔ ¬Reshaped x cs y := by
  have hforms := lowercaseBetween_append_eq_iff [] x.reverse y cs
  rw [List.nil_append, lowercaseBetween_nil, ← lowercase] at hforms
  rw [hforms]
  constructor
  · rintro h (⟨⟨b, a, hcs, hb, ha⟩, hy⟩ | ⟨⟨b, a, hcs, hb, ha⟩, hx⟩)
    · have hsigma := h b a hcs
      rw [List.append_nil, lowercaseSigma_append_eq_iff] at hsigma
      exact hsigma (.inl ⟨hb, ha, hy⟩)
    · have hsigma := h b a hcs
      rw [List.append_nil, lowercaseSigma_append_eq_iff] at hsigma
      exact hsigma (.inr ⟨by rw [isMarks, List.all_reverse]; exact hb, ha, hx⟩)
  · intro h b a hcs
    rw [List.append_nil, lowercaseSigma_append_eq_iff]
    rintro (⟨hb, ha, hy⟩ | ⟨hb, ha, hx⟩)
    · exact h (.inl ⟨⟨b, a, hcs, hb, ha⟩, hy⟩)
    · rw [isMarks, List.all_reverse] at hb
      exact h (.inr ⟨⟨b, a, hcs, hb, ha⟩, hx⟩)

theorem length_lowercaseBetween_eq_lowercase (before after cs : List Char) :
    (lowercaseBetween before after cs).length = (lowercase cs).length := by
  rw [lowercase, ← lowercaseBetween_nil]
  exact length_lowercaseBetween _ _ _ _ _

/-- With nothing in front, a text is reshaped exactly if it closes in a sigma that a letter
follows. -/
theorem reshaped_nil_left {cs y : List Char} :
    Reshaped [] cs y ↔ ClosesInSigma cs ∧ leadsToCased y = true := by
  simp [Reshaped, leadsToCased]

/-- With nothing behind, a text is reshaped exactly if it opens in a sigma that a letter
precedes. -/
theorem reshaped_nil_right {x cs : List Char} :
    Reshaped x cs [] ↔ OpensInSigma cs [] ∧ leadsToCased x.reverse = true := by
  simp [Reshaped, leadsToCased]

/-- A sigma that no letter follows in a longer text has none behind it in the shorter one. -/
theorem OpensInSigma.alone {cs after : List Char} (h : OpensInSigma cs after) :
    OpensInSigma cs [] := by
  obtain ⟨b, a, hcs, hb, ha⟩ := h
  refine ⟨b, a, hcs, hb, ?_⟩
  rw [List.append_nil]
  cases hmarks : isMarks a with
  | true => exact leadsToCased_of_isMarks hmarks
  | false => rwa [leadsToCased_append_of_not_isMarks hmarks] at ha

end FieldFilter
