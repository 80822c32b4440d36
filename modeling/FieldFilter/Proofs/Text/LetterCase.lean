import FieldFilter.Text.Lowercase
import Mathlib.Data.List.Forall2

/-!
# The case of ASCII letters

Lower-casing a text takes no notice of the case of its ASCII letters. A capital and its small letter
have the same lower-case form, and they are the same to a sigma beside them: both have case, and
neither is passed over. So two texts that differ in the case of such letters only are lower-cased to
the same text, whatever else is in them.
-/

namespace FieldFilter

/-! ## A letter in either case -/

/-- The characters are lower-cased to the same, and they are the same to their neighbours. -/
structure CaseTwins (c d : Char) : Prop where
  isCased : isCased c = isCased d
  isCaseIgnorable : isCaseIgnorable c = isCaseIgnorable d
  isSigma : c = 'Σ' ↔ d = 'Σ'
  isDotted : c = 'İ' ↔ d = 'İ'
  lowercaseChar : lowercaseChar c = lowercaseChar d

namespace CaseTwins

variable {c d : Char}

theorem refl (c : Char) : CaseTwins c c := ⟨rfl, rfl, Iff.rfl, Iff.rfl, rfl⟩

theorem symm (h : CaseTwins c d) : CaseTwins d c :=
  ⟨h.isCased.symm, h.isCaseIgnorable.symm, h.isSigma.symm, h.isDotted.symm, h.lowercaseChar.symm⟩

end CaseTwins

/-- A block of code points that no range meets has no character in them. -/
theorem inRanges_of_apart {ranges : List (Nat × Nat)} {first last : Nat}
    (hapart : ∀ r ∈ ranges, r.2 < first ∨ last < r.1) {c : Char}
    (hc : first ≤ c.toNat ∧ c.toNat ≤ last) : inRanges ranges c = false := by
  rw [inRanges, List.any_eq_false]
  intro r hr
  have := hapart r hr
  simp only [Bool.and_eq_true, decide_eq_true_eq]
  omega

/-- A character of a block that no run of capitals meets is its own lower-case form. -/
theorem lowercaseChar_of_apart {first last : Nat}
    (hapart : ∀ r ∈ lowercaseRuns, r.last < first ∨ last < r.first) {c : Char}
    (hc : first ≤ c.toNat ∧ c.toNat ≤ last) : lowercaseChar c = c := by
  have hnone : lowercaseRuns.find? (·.contains c.toNat) = none := by
    rw [List.find?_eq_none]
    intro r hr
    have := hapart r hr
    simp only [LowercaseRun.contains, Bool.and_eq_true, decide_eq_true_eq]
    omega
  rw [lowercaseChar, hnone]

/-- A capital ASCII letter and its small letter, which is 32 code points behind it, are twins. -/
theorem caseTwins_of_capital {c d : Char} (hc : 65 ≤ c.toNat ∧ c.toNat ≤ 90)
    (hd : d.toNat = c.toNat + 32) : CaseTwins c d := by
  have hsmall : 97 ≤ d.toNat ∧ d.toNat ≤ 122 := by omega
  have hne (e : Char) (he : 123 ≤ e.toNat) : c ≠ e ∧ d ≠ e := by
    constructor
    · rintro rfl
      omega
    · rintro rfl
      omega
  have hlower : lowercaseChar c = d := by
    have hrun : lowercaseRuns.find? (·.contains c.toNat) = some ⟨0x41, 0x5A, 1, 32⟩ := by
      refine List.find?_cons_of_pos ?_
      simp [LowercaseRun.contains, hc, Nat.mod_one]
    rw [lowercaseChar, hrun, ← Char.ofNat_toNat d, hd]
    congr 1
  constructor
  · have hcased : isCased c = true :=
      List.any_eq_true.2 ⟨(0x41, 0x5A), by decide, by simpa using hc⟩
    have hcased' : isCased d = true :=
      List.any_eq_true.2 ⟨(0x61, 0x7A), by decide, by simpa using hsmall⟩
    rw [hcased, hcased']
  · rw [isCaseIgnorable, inRanges_of_apart (by decide +kernel) hc, isCaseIgnorable,
      inRanges_of_apart (by decide +kernel) hsmall]
  · exact iff_of_false (hne 'Σ' (by decide)).1 (hne 'Σ' (by decide)).2
  · exact iff_of_false (hne 'İ' (by decide)).1 (hne 'İ' (by decide)).2
  · rw [hlower, lowercaseChar_of_apart (by decide +kernel) hsmall]

/-- Every character is a twin of its small ASCII letter, or else unchanged. -/
theorem caseTwins_toLower (c : Char) : CaseTwins c c.toLower := by
  unfold Char.toLower
  split
  · rename_i h
    have hc : 65 ≤ c.toNat ∧ c.toNat ≤ 90 := h
    refine caseTwins_of_capital hc ?_
    have hdistance : ('a'.val - 'A'.val).toNat = 32 := by decide
    show (c.val + ('a'.val - 'A'.val)).toNat = c.toNat + 32
    rw [UInt32.toNat_add, Char.toNat_val, hdistance]
    omega
  · exact .refl c

/-- Every character is a twin of its capital ASCII letter, or else unchanged. -/
theorem caseTwins_toUpper (c : Char) : CaseTwins c c.toUpper := by
  unfold Char.toUpper
  split
  · rename_i h
    have hc : 97 ≤ c.toNat ∧ c.toNat ≤ 122 := h
    -- the distance to the capital letter is negative and wraps around
    have hdistance : ('A'.val - 'a'.val).toNat = 4294967264 := by decide
    have hcapital : (c.val + ('A'.val - 'a'.val)).toNat + 32 = c.toNat := by
      rw [UInt32.toNat_add, Char.toNat_val, hdistance]
      omega
    refine CaseTwins.symm (caseTwins_of_capital ?_ hcapital.symm)
    show 65 ≤ (c.val + ('A'.val - 'a'.val)).toNat ∧ (c.val + ('A'.val - 'a'.val)).toNat ≤ 90
    omega
  · exact .refl c

/-- A character as it was, or an ASCII letter in the other case. -/
def RecasedChar (c d : Char) : Prop := d = c ∨ d = c.toLower ∨ d = c.toUpper

/-- A letter in the other case is a twin. -/
theorem RecasedChar.twins {c d : Char} (h : RecasedChar c d) : CaseTwins c d := by
  rcases h with rfl | rfl | rfl
  · exact .refl d
  · exact caseTwins_toLower c
  · exact caseTwins_toUpper c

/-! ## Texts of twins -/

section Twins

variable {as bs : List Char}

/-- Whether a letter comes next is the same among twins. -/
theorem leadsToCased_eq_of_twins (h : List.Forall₂ CaseTwins as bs) :
    leadsToCased as = leadsToCased bs := by
  induction h with
  | nil => rfl
  | @cons c d as bs hcd _ ih =>
    unfold leadsToCased at ih ⊢
    rw [List.dropWhile_cons, List.dropWhile_cons, hcd.isCaseIgnorable]
    by_cases hd : isCaseIgnorable d = true
    · rw [if_pos hd, if_pos hd]
      exact ih
    · rw [if_neg hd, if_neg hd]
      exact hcd.isCased

/-- Twins among twins are lower-cased alike. -/
theorem lowercaseAt_eq_of_twins {before before' : List Char} {c d : Char}
    (hbefore : List.Forall₂ CaseTwins before before') (hcd : CaseTwins c d)
    (hafter : List.Forall₂ CaseTwins as bs) :
    lowercaseAt before c as = lowercaseAt before' d bs := by
  have hsigma : lowercaseSigma before as = lowercaseSigma before' bs := by
    rw [lowercaseSigma, leadsToCased_eq_of_twins hbefore, leadsToCased_eq_of_twins hafter]
    rfl
  simp only [lowercaseAt, hcd.isSigma, hcd.isDotted, hcd.lowercaseChar, hsigma]

/-- Twins behind twins are lower-cased alike. -/
theorem lowercaseAfter_eq_of_twins (h : List.Forall₂ CaseTwins as bs) {before before' : List Char}
    (hbefore : List.Forall₂ CaseTwins before before') :
    lowercaseAfter before as = lowercaseAfter before' bs := by
  induction h generalizing before before' with
  | nil => rfl
  | cons hcd hrest ih =>
    rw [lowercaseAfter, lowercaseAfter, lowercaseAt_eq_of_twins hbefore hcd hrest,
      ih (hbefore.cons hcd)]

end Twins

/-! ## Whole texts -/

/-- The lower-case form of a text. -/
def lowercased (text : String) : String := String.ofList (lowercase text.toList)

/-- The second text is the first one with some of its ASCII letters in the other case. -/
def Recased (text text' : String) : Prop :=
  List.Forall₂ RecasedChar text.toList text'.toList

/-- The case of ASCII letters is lost in the lower-case form. -/
theorem Recased.lowercased_eq {text text' : String} (h : Recased text text') :
    lowercased text = lowercased text' :=
  congrArg String.ofList (lowercaseAfter_eq_of_twins (h.imp fun _ _ => RecasedChar.twins) .nil)

end FieldFilter
