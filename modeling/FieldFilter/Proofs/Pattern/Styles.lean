import FieldFilter.Proofs.Pattern.IgnoringCase
import FieldFilter.Proofs.Text.LetterCase

/-!
# What the styles ask for

Each style asks for the text of a pattern at some place of the candidate: all of it, its beginning,
its end, or anywhere in it. From there the styles form a hierarchy, in which a narrower place is a
wider one as well. The styles that ignore case ask the same of the two lower-case forms, so that
they form a hierarchy of their own, and the case of ASCII letters makes no difference to them.
-/

namespace FieldFilter

namespace MatchStyle

/-- Whether the style looks at lower-case forms. -/
def ignoresCase : MatchStyle → Bool
  | containsIgnoreCase | startsWithIgnoreCase | endsWithIgnoreCase => true
  | exact | contains | startsWith | endsWith => false

/-- The style that asks for the same place with regard to case. -/
def regardingCase : MatchStyle → MatchStyle
  | containsIgnoreCase => contains
  | startsWithIgnoreCase => startsWith
  | endsWithIgnoreCase => endsWith
  | style => style

/-- Where a style asks for a text in a candidate. -/
def Asks (style : MatchStyle) (text candidate : String) : Prop :=
  match style with
  | exact => candidate = text
  | contains => ∃ x y, candidate = x ++ text ++ y
  | containsIgnoreCase => ∃ x y, lowercased candidate = x ++ lowercased text ++ y
  | startsWith => ∃ y, candidate = text ++ y
  | startsWithIgnoreCase => ∃ y, lowercased candidate = lowercased text ++ y
  | endsWith => ∃ x, candidate = x ++ text
  | endsWithIgnoreCase => ∃ x, lowercased candidate = x ++ lowercased text

end MatchStyle

namespace Pattern

variable {text candidate : String} {style : MatchStyle}

/-- To ignore case is to regard it in the lower-case forms. -/
theorem accepts_of_ignoresCase (h : style.ignoresCase = true) :
    (⟨text, style⟩ : Pattern).accepts candidate =
      (⟨lowercased text, style.regardingCase⟩ : Pattern).accepts (lowercased candidate) := by
  cases style with
  | exact | contains | startsWith | endsWith => cases h
  | containsIgnoreCase | startsWithIgnoreCase | endsWithIgnoreCase =>
    simp [accepts, MatchStyle.regardingCase, lowercased]

/-- A pattern accepts the candidates for which its style asks. -/
theorem accepts_iff_asks :
    (⟨text, style⟩ : Pattern).accepts candidate = true ↔ style.Asks text candidate := by
  cases style with
  | exact => exact beq_iff_eq
  | contains => exact accepts_contains_iff
  | startsWith => exact accepts_startsWith_iff
  | endsWith => exact accepts_endsWith_iff
  | containsIgnoreCase =>
    rw [accepts_of_ignoresCase rfl]
    exact accepts_contains_iff
  | startsWithIgnoreCase =>
    rw [accepts_of_ignoresCase rfl]
    exact accepts_startsWith_iff
  | endsWithIgnoreCase =>
    rw [accepts_of_ignoresCase rfl]
    exact accepts_endsWith_iff

/-! ## The hierarchy -/

/-- All of a candidate is a beginning of it. -/
theorem implies_startsWith_of_exact (text : String) :
    Implies ⟨text, .exact⟩ ⟨text, .startsWith⟩ := by
  intro candidate h
  obtain rfl : candidate = text := accepts_iff_asks.1 h
  exact accepts_iff_asks.2 ⟨"", String.append_empty.symm⟩

/-- All of a candidate is an end of it. -/
theorem implies_endsWith_of_exact (text : String) :
    Implies ⟨text, .exact⟩ ⟨text, .endsWith⟩ := by
  intro candidate h
  obtain rfl : candidate = text := accepts_iff_asks.1 h
  exact accepts_iff_asks.2 ⟨"", String.empty_append.symm⟩

/-- A beginning is a place in the candidate. -/
theorem implies_contains_of_startsWith (text : String) :
    Implies ⟨text, .startsWith⟩ ⟨text, .contains⟩ := by
  intro candidate h
  obtain ⟨y, hy⟩ := accepts_iff_asks.1 h
  exact accepts_iff_asks.2 ⟨"", y, by rw [hy, String.empty_append]⟩

/-- An end is a place in the candidate. -/
theorem implies_contains_of_endsWith (text : String) :
    Implies ⟨text, .endsWith⟩ ⟨text, .contains⟩ := by
  intro candidate h
  obtain ⟨x, hx⟩ := accepts_iff_asks.1 h
  exact accepts_iff_asks.2 ⟨x, "", by rw [hx, String.append_empty]⟩

/-- What holds between two styles with regard to case, for all texts, holds without regard to it. -/
theorem implies_of_regardingCase (style style' : MatchStyle) (h : style.ignoresCase = true)
    (h' : style'.ignoresCase = true)
    (himplies : ∀ text, Implies ⟨text, style.regardingCase⟩ ⟨text, style'.regardingCase⟩)
    (text : String) : Implies ⟨text, style⟩ ⟨text, style'⟩ := by
  intro candidate haccepts
  rw [accepts_of_ignoresCase h] at haccepts
  rw [accepts_of_ignoresCase h']
  exact himplies _ _ haccepts

/-- The case of ASCII letters makes no difference to a style that ignores case. -/
theorem accepts_recased {text' candidate' : String} (h : style.ignoresCase = true)
    (htext : Recased text text') (hcandidate : Recased candidate candidate') :
    (⟨text', style⟩ : Pattern).accepts candidate' =
      (⟨text, style⟩ : Pattern).accepts candidate := by
  rw [accepts_of_ignoresCase h, accepts_of_ignoresCase h, htext.lowercased_eq,
    hcandidate.lowercased_eq]

/-- The empty text stands everywhere. -/
theorem accepts_empty (hstyle : style ≠ .exact) (candidate : String) :
    (⟨"", style⟩ : Pattern).accepts candidate = true := by
  rw [accepts_iff_asks]
  cases style with
  | exact => exact absurd rfl hstyle
  | contains => exact ⟨"", candidate, by rw [String.append_empty, String.empty_append]⟩
  | startsWith => exact ⟨candidate, String.empty_append.symm⟩
  | endsWith => exact ⟨candidate, String.append_empty.symm⟩
  | containsIgnoreCase => exact ⟨"", _, String.empty_append.symm⟩
  | startsWithIgnoreCase => exact ⟨_, String.empty_append.symm⟩
  | endsWithIgnoreCase => exact ⟨_, String.append_empty.symm⟩

/-- Every style asks for the text at its place of the candidate, and a narrower place is a wider one
as well. This is so with regard to case and, of the lower-case forms, without it. To a style that
ignores case it makes no difference if ASCII letters change their case, be it in the text or in the
candidate. The empty text is found in every candidate, and is all of the empty one only. -/
theorem styles_hierarchy (text candidate : String) :
    (∀ style : MatchStyle,
      (⟨text, style⟩ : Pattern).accepts candidate = true ↔ style.Asks text candidate) ∧
    (Implies ⟨text, .exact⟩ ⟨text, .startsWith⟩ ∧ Implies ⟨text, .exact⟩ ⟨text, .endsWith⟩ ∧
      Implies ⟨text, .startsWith⟩ ⟨text, .contains⟩ ∧
      Implies ⟨text, .endsWith⟩ ⟨text, .contains⟩) ∧
    ((lowercased candidate = lowercased text →
        (⟨text, .startsWithIgnoreCase⟩ : Pattern).accepts candidate = true ∧
        (⟨text, .endsWithIgnoreCase⟩ : Pattern).accepts candidate = true) ∧
      Implies ⟨text, .startsWithIgnoreCase⟩ ⟨text, .containsIgnoreCase⟩ ∧
      Implies ⟨text, .endsWithIgnoreCase⟩ ⟨text, .containsIgnoreCase⟩) ∧
    (∀ (text' candidate' : String) (style : MatchStyle), style.ignoresCase = true →
      Recased text text' → Recased candidate candidate' →
        (⟨text', style⟩ : Pattern).accepts candidate' =
          (⟨text, style⟩ : Pattern).accepts candidate) ∧
    (∀ style, style ≠ .exact → (⟨"", style⟩ : Pattern).accepts candidate = true) ∧
    ((⟨"", .exact⟩ : Pattern).accepts candidate = true ↔ candidate = "") := by
  refine ⟨fun _ => accepts_iff_asks, ?regarding, ?ignoring, ?recased, ?empty, beq_iff_eq⟩
  case regarding =>
    exact ⟨implies_startsWith_of_exact text, implies_endsWith_of_exact text,
      implies_contains_of_startsWith text, implies_contains_of_endsWith text⟩
  case ignoring =>
    refine ⟨fun h => ⟨accepts_iff_asks.2 ⟨"", ?_⟩, accepts_iff_asks.2 ⟨"", ?_⟩⟩, ?_, ?_⟩
    · rw [h, String.append_empty]
    · rw [h, String.empty_append]
    · exact implies_of_regardingCase .startsWithIgnoreCase .containsIgnoreCase rfl rfl
        implies_contains_of_startsWith text
    · exact implies_of_regardingCase .endsWithIgnoreCase .containsIgnoreCase rfl rfl
        implies_contains_of_endsWith text
  case recased =>
    intro text' candidate' style hstyle htext hcandidate
    exact accepts_recased hstyle htext hcandidate
  case empty =>
    intro style hstyle
    exact accepts_empty hstyle candidate

/-- In `xAΣ b` the sigma ends a word, and so it does in `XaΣ B`: the pattern `aΣ` is found in the
second one because `AΣ` is found in the first one. -/
theorem styles_hierarchy_sigma :
    Recased "AΣ" "aΣ" ∧ Recased "xAΣ b" "XaΣ B" ∧
    (⟨"AΣ", .containsIgnoreCase⟩ : Pattern).accepts "xAΣ b" = true ∧
    (⟨"aΣ", .containsIgnoreCase⟩ : Pattern).accepts "XaΣ B" = true := by
  have htext : Recased "AΣ" "aΣ" :=
    .cons (.inr (.inl rfl)) (.cons (.inl rfl) .nil)
  have hcandidate : Recased "xAΣ b" "XaΣ B" :=
    .cons (.inr (.inr rfl)) (.cons (.inr (.inl rfl)) (.cons (.inl rfl) (.cons (.inl rfl)
      (.cons (.inr (.inr rfl)) .nil))))
  obtain ⟨hasks, -, -, hrecased, -, -⟩ := styles_hierarchy "AΣ" "xAΣ b"
  have hfound : (⟨"AΣ", .containsIgnoreCase⟩ : Pattern).accepts "xAΣ b" = true :=
    (hasks .containsIgnoreCase).2 ⟨"x", " b", by decide +kernel⟩
  exact ⟨htext, hcandidate, hfound, (hrecased _ _ _ rfl htext hcandidate).trans hfound⟩

end Pattern

end FieldFilter
