import FieldFilter.Pattern
import FieldFilter.Proofs.Text.FinalSigma

/-!
# Matching without regard to case

A style that ignores case lower-cases the pattern and the candidate, each as a whole, and then looks
for the one in the other. One expects it to accept whatever its namesake with regard to case
accepts, and so it does for all patterns but those that have a capital sigma at an end: at the end
of a word a sigma is lower-cased in another way, and where the pattern ends the candidate may go on.
The patterns and the candidates for which this happens are told exactly.
-/

namespace FieldFilter

/-- One run of characters occurs in another one exactly if it is an infix of it. -/
theorem occursIn_iff {sought cs : List Char} : occursIn sought cs = true ↔ sought <:+: cs := by
  induction cs with
  | nil => rw [occursIn, List.isEmpty_iff, List.infix_nil]
  | cons c cs ih =>
    rw [occursIn, Bool.or_eq_true, List.isPrefixOf_iff_prefix, ih, List.infix_cons_iff]

namespace Pattern

/-- Whatever the first pattern accepts the second one accepts as well. -/
def Implies (p q : Pattern) : Prop :=
  ∀ candidate, p.accepts candidate = true → q.accepts candidate = true

section Styles

variable {text candidate : String}

/-! ## What the styles look for -/

/-- A text is contained where it stands between two others. -/
theorem accepts_contains_iff :
    (⟨text, .contains⟩ : Pattern).accepts candidate = true ↔
      ∃ x y : String, candidate = x ++ text ++ y := by
  refine occursIn_iff.trans ⟨?_, ?_⟩
  · rintro ⟨x, y, h⟩
    refine ⟨String.ofList x, String.ofList y, String.toList_inj.1 ?_⟩
    simp [← h]
  · rintro ⟨x, y, rfl⟩
    exact ⟨x.toList, y.toList, by simp⟩

/-- A text is a beginning where another one stands behind it. -/
theorem accepts_startsWith_iff :
    (⟨text, .startsWith⟩ : Pattern).accepts candidate = true ↔
      ∃ y : String, candidate = text ++ y := by
  refine List.isPrefixOf_iff_prefix.trans ⟨?_, ?_⟩
  · rintro ⟨y, h⟩
    refine ⟨String.ofList y, String.toList_inj.1 ?_⟩
    simp [← h]
  · rintro ⟨y, rfl⟩
    exact ⟨y.toList, by simp⟩

/-- A text is an end where another one stands in front of it. -/
theorem accepts_endsWith_iff :
    (⟨text, .endsWith⟩ : Pattern).accepts candidate = true ↔
      ∃ x : String, candidate = x ++ text := by
  refine List.isSuffixOf_iff_suffix.trans ⟨?_, ?_⟩
  · rintro ⟨x, h⟩
    refine ⟨String.ofList x, String.toList_inj.1 ?_⟩
    simp [← h]
  · rintro ⟨x, rfl⟩
    exact ⟨x.toList, by simp⟩

end Styles

/-! ## Candidates around a pattern -/

/-- Where its sigmas keep their forms, the lower-case form of a text occurs. -/
theorem lowercase_infix {x cs y : List Char} (h : ¬Reshaped x cs y) :
    lowercase cs <:+: lowercase (x ++ cs ++ y) := by
  rw [lowercase_append_append, (lowercaseBetween_eq_lowercase_iff x y cs).2 h]
  exact List.infix_append _ _ _

/-- The lower-case form of a text begins that of a longer one exactly if it keeps its form there. -/
theorem lowercase_prefix_iff {cs y : List Char} :
    lowercase cs <+: lowercase (cs ++ y) ↔ ¬Reshaped [] cs y := by
  have hsplit : lowercase (cs ++ y) =
      lowercaseBetween [] y cs ++ lowercaseAfter (cs.reverse ++ []) y :=
    lowercaseAfter_append [] cs y
  rw [← lowercaseBetween_eq_lowercase_iff, hsplit, List.reverse_nil]
  constructor
  · rintro ⟨rest, h⟩
    exact (List.append_inj h (length_lowercaseBetween_eq_lowercase [] y cs).symm).1.symm
  · intro h
    rw [h]
    exact List.prefix_append _ _

/-- The lower-case form of a text ends that of a longer one exactly if it keeps its form there. -/
theorem lowercase_suffix_iff {x cs : List Char} :
    lowercase cs <:+ lowercase (x ++ cs) ↔ ¬Reshaped x cs [] := by
  have hsplit : lowercase (x ++ cs) =
      lowercaseBetween [] cs x ++ lowercaseBetween x.reverse [] cs := by
    rw [lowercase, lowercaseAfter_append, List.append_nil, lowercaseBetween_nil]
  rw [← lowercaseBetween_eq_lowercase_iff, hsplit]
  constructor
  · rintro ⟨rest, h⟩
    have hlength : (lowercase cs).length = (lowercaseBetween x.reverse [] cs).length :=
      (length_lowercaseBetween_eq_lowercase _ _ _).symm
    exact (List.append_inj' h hlength).2.symm
  · intro h
    rw [h]
    exact List.suffix_append _ _

/-! ## A letter that reshapes a pattern -/

/-- There is a small letter that is not the given one. -/
theorem exists_letter_ne (o : Option Char) :
    ∃ l, o ≠ some l ∧ leadsToCased [l] = true ∧
      ∀ before after, lowercaseAt before l after = [l] := by
  by_cases h : o = some 'a'
  · refine ⟨'b', ?_, by decide +kernel, fun _ _ => rfl⟩
    rw [h]
    decide
  · exact ⟨'a', h, by decide +kernel, fun _ _ => rfl⟩

/-- A text that closes in a sigma does not occur any more, lower-cased, once a suitable letter
has been appended to it: its own lower-case form is as long as what it has become, and does not
end so. -/
theorem exists_not_infix_of_closesInSigma {cs : List Char} (h : ClosesInSigma cs) :
    ∃ l, ¬lowercase cs <:+: lowercase (cs ++ [l]) := by
  obtain ⟨l, hne, hletter, hlower⟩ := exists_letter_ne (lowercase cs).getLast?
  refine ⟨l, fun hinfix => ?_⟩
  have hreshaped : Reshaped [] cs [l] := .inl ⟨h, hletter⟩
  have hsplit : lowercase (cs ++ [l]) = lowercaseBetween [] [l] cs ++ [l] := by
    rw [lowercase, lowercaseAfter_append, lowercaseAfter, hlower]
    rfl
  rw [hsplit, List.infix_concat_iff, List.suffix_concat_iff] at hinfix
  rcases hinfix with (hnil | ⟨s, hs, _⟩) | hinfix
  · exact lowercase_prefix_iff.1 (hnil ▸ List.nil_prefix) hreshaped
  · exact hne (by rw [hs, List.getLast?_concat])
  · have heq := hinfix.eq_of_length (length_lowercaseBetween_eq_lowercase _ _ _).symm
    exact (lowercaseBetween_eq_lowercase_iff [] [l] cs).1 heq.symm hreshaped

/-- A text that opens in a sigma does not occur any more, lower-cased, once a suitable letter has
been put in front of it. -/
theorem exists_not_infix_of_opensInSigma {cs : List Char} (h : OpensInSigma cs []) :
    ∃ l, ¬lowercase cs <:+: lowercase (l :: cs) := by
  obtain ⟨l, hne, hletter, hlower⟩ := exists_letter_ne (lowercase cs).head?
  refine ⟨l, fun hinfix => ?_⟩
  have hreshaped : Reshaped [l] cs [] := .inr ⟨h, hletter⟩
  have hsplit : lowercase (l :: cs) = l :: lowercaseBetween [l] [] cs := by
    rw [lowercase, lowercaseAfter, hlower, lowercaseBetween_nil]
    rfl
  rw [hsplit, List.infix_cons_iff, List.prefix_cons_iff] at hinfix
  rcases hinfix with (hnil | ⟨s, hs, _⟩) | hinfix
  · exact lowercase_suffix_iff.1 (hnil ▸ List.nil_suffix) hreshaped
  · exact hne (by rw [hs, List.head?_cons])
  · have heq := hinfix.eq_of_length (length_lowercaseBetween_eq_lowercase _ _ _).symm
    exact (lowercaseBetween_eq_lowercase_iff [l] [] cs).1 heq.symm hreshaped

/-! ## Patterns and their namesakes -/

section Namesakes

variable (text : String)

/-- A pattern is found without regard to case wherever none of its sigmas is reshaped. -/
theorem accepts_containsIgnoreCase {x y : String}
    (h : ¬Reshaped x.toList text.toList y.toList) :
    (⟨text, .containsIgnoreCase⟩ : Pattern).accepts (x ++ text ++ y) = true := by
  apply occursIn_iff.2
  rw [String.toList_append, String.toList_append]
  exact lowercase_infix h

/-- At the beginning of a candidate only a closing sigma counts, and a letter behind it. -/
theorem accepts_startsWithIgnoreCase_iff (y : String) :
    (⟨text, .startsWithIgnoreCase⟩ : Pattern).accepts (text ++ y) = true ↔
      ¬(ClosesInSigma text.toList ∧ leadsToCased y.toList = true) := by
  refine List.isPrefixOf_iff_prefix.trans ?_
  rw [String.toList_append, lowercase_prefix_iff, reshaped_nil_left]

/-- At the end of a candidate only an opening sigma counts, and a letter in front of it. -/
theorem accepts_endsWithIgnoreCase_iff (x : String) :
    (⟨text, .endsWithIgnoreCase⟩ : Pattern).accepts (x ++ text) = true ↔
      ¬(OpensInSigma text.toList [] ∧ leadsToCased x.toList.reverse = true) := by
  refine List.isSuffixOf_iff_suffix.trans ?_
  rw [String.toList_append, lowercase_suffix_iff, reshaped_nil_right]

/-- Within a text, a sigma at either end of the pattern can change its form. -/
theorem implies_containsIgnoreCase_iff :
    (⟨text, .contains⟩ : Pattern).Implies ⟨text, .containsIgnoreCase⟩ ↔
      ¬ClosesInSigma text.toList ∧ ¬OpensInSigma text.toList [] := by
  constructor
  · intro h
    constructor
    · intro hcloses
      obtain ⟨l, hmissed⟩ := exists_not_infix_of_closesInSigma hcloses
      have hcandidate : text ++ String.ofList [l] = "" ++ text ++ String.ofList [l] := by simp
      have hfound := h _ (accepts_contains_iff.2 ⟨"", String.ofList [l], hcandidate⟩)
      apply hmissed
      simpa using occursIn_iff.1 hfound
    · intro hopens
      obtain ⟨l, hmissed⟩ := exists_not_infix_of_opensInSigma hopens
      have hcandidate : String.ofList [l] ++ text = String.ofList [l] ++ text ++ "" := by simp
      have hfound := h _ (accepts_contains_iff.2 ⟨String.ofList [l], "", hcandidate⟩)
      apply hmissed
      simpa using occursIn_iff.1 hfound
  · rintro ⟨hcloses, hopens⟩ candidate hcandidate
    obtain ⟨x, y, rfl⟩ := accepts_contains_iff.1 hcandidate
    apply accepts_containsIgnoreCase
    rintro (⟨h, _⟩ | ⟨h, _⟩)
    · exact hcloses h
    · exact hopens h.alone

/-- At the beginning of a text, only a sigma at the end of the pattern can change its form. -/
theorem implies_startsWithIgnoreCase_iff :
    (⟨text, .startsWith⟩ : Pattern).Implies ⟨text, .startsWithIgnoreCase⟩ ↔
      ¬ClosesInSigma text.toList := by
  constructor
  · intro h hcloses
    have hfound := h _ (accepts_startsWith_iff.2 ⟨"a", rfl⟩)
    have hletter : leadsToCased "a".toList = true := by decide +kernel
    exact (accepts_startsWithIgnoreCase_iff text "a").1 hfound ⟨hcloses, hletter⟩
  · rintro hcloses candidate hcandidate
    obtain ⟨y, rfl⟩ := accepts_startsWith_iff.1 hcandidate
    exact (accepts_startsWithIgnoreCase_iff text y).2 fun h => hcloses h.1

/-- At the end of a text, only a sigma at the beginning of the pattern can change its form. -/
theorem implies_endsWithIgnoreCase_iff :
    (⟨text, .endsWith⟩ : Pattern).Implies ⟨text, .endsWithIgnoreCase⟩ ↔
      ¬OpensInSigma text.toList [] := by
  constructor
  · intro h hopens
    have hfound := h _ (accepts_endsWith_iff.2 ⟨"a", rfl⟩)
    have hletter : leadsToCased "a".toList.reverse = true := by decide +kernel
    exact (accepts_endsWithIgnoreCase_iff text "a").1 hfound ⟨hopens, hletter⟩
  · rintro hopens candidate hcandidate
    obtain ⟨x, rfl⟩ := accepts_endsWith_iff.1 hcandidate
    exact (accepts_endsWithIgnoreCase_iff text x).2 fun h => hopens h.1

/-- Ignoring case accepts what regard to case accepts, but for patterns with a capital sigma at an
end. A pattern that does not close in a sigma behind a letter, and does not open with one that no
letter follows, is found without regard to case wherever it is found with it; any other pattern is
missed in some candidate. At the beginning of candidates only the closing sigma counts, and it is
missed exactly if a letter follows; at their end only the opening one, and it is missed exactly if a
letter stands before it. -/
theorem implies_ignoreCase_iff :
    ((⟨text, .contains⟩ : Pattern).Implies ⟨text, .containsIgnoreCase⟩ ↔
      ¬ClosesInSigma text.toList ∧ ¬OpensInSigma text.toList []) ∧
    ((⟨text, .startsWith⟩ : Pattern).Implies ⟨text, .startsWithIgnoreCase⟩ ↔
      ¬ClosesInSigma text.toList) ∧
    ((⟨text, .endsWith⟩ : Pattern).Implies ⟨text, .endsWithIgnoreCase⟩ ↔
      ¬OpensInSigma text.toList []) ∧
    (∀ x y : String, ¬Reshaped x.toList text.toList y.toList →
      (⟨text, .containsIgnoreCase⟩ : Pattern).accepts (x ++ text ++ y) = true) ∧
    (∀ y : String, (⟨text, .startsWithIgnoreCase⟩ : Pattern).accepts (text ++ y) = true ↔
      ¬(ClosesInSigma text.toList ∧ leadsToCased y.toList = true)) ∧
    ∀ x : String, (⟨text, .endsWithIgnoreCase⟩ : Pattern).accepts (x ++ text) = true ↔
      ¬(OpensInSigma text.toList [] ∧ leadsToCased x.toList.reverse = true) :=
  ⟨implies_containsIgnoreCase_iff text, implies_startsWithIgnoreCase_iff text,
    implies_endsWithIgnoreCase_iff text, fun _ _ => accepts_containsIgnoreCase text,
    accepts_startsWithIgnoreCase_iff text, accepts_endsWithIgnoreCase_iff text⟩

end Namesakes

/-- The pattern `ΑΣ` closes in a sigma, and is still found in front of a full stop. -/
theorem implies_ignoreCase_iff_fullStop :
    ¬Reshaped "".toList "ΑΣ".toList ".".toList ∧
      (⟨"ΑΣ", .containsIgnoreCase⟩ : Pattern).accepts ("" ++ "ΑΣ" ++ ".") = true := by
  have hforms : ¬Reshaped "".toList "ΑΣ".toList ".".toList := by
    intro h
    have hletter : leadsToCased ".".toList = false := by decide +kernel
    rw [(reshaped_nil_left.1 h).2] at hletter
    cases hletter
  obtain ⟨-, -, -, hcontains, -, -⟩ := implies_ignoreCase_iff "ΑΣ"
  exact ⟨hforms, hcontains "" "." hforms⟩

/-- The pattern `ΑΣ` is lower-cased with a final sigma, and the candidate `ΑΣΑ` with none; the
pattern `Σ` is lower-cased without one, and the candidate `ΑΣ` with one. -/
theorem not_implies_ignoreCase :
    ¬(⟨"ΑΣ", .contains⟩ : Pattern).Implies ⟨"ΑΣ", .containsIgnoreCase⟩ ∧
    ¬(⟨"ΑΣ", .startsWith⟩ : Pattern).Implies ⟨"ΑΣ", .startsWithIgnoreCase⟩ ∧
    ¬(⟨"Σ", .endsWith⟩ : Pattern).Implies ⟨"Σ", .endsWithIgnoreCase⟩ := by
  refine ⟨fun h => ?_, fun h => ?_, fun h => ?_⟩
  · exact absurd (h "ΑΣΑ" (by decide +kernel)) (by decide +kernel)
  · exact absurd (h "ΑΣΑ" (by decide +kernel)) (by decide +kernel)
  · exact absurd (h "ΑΣ" (by decide +kernel)) (by decide +kernel)

end Pattern

end FieldFilter
