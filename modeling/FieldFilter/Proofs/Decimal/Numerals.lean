import FieldFilter.Proofs.Decimal.Reading

/-!
# Numerals that are read exactly or not at all

A numeral of a query is a run of digits, with or without a point and more digits behind it. Read
exactly, it is the decimal of all its digits, with as many places as it has digits behind the point,
and it is refused if a decimal has no room for the digits or for the places. No numeral is read as
another number than the one it spells.
-/

namespace FieldFilter.Decimal

/-- A numeral as it stands in a query. -/
structure Numeral where
  /-- The digits in front of the point. -/
  whole : List Char
  /-- The digits behind the point; where there are none, there is no point either. -/
  places : List Char
  whole_ne_nil : whole ≠ [] := by simp
  isDigit_whole : ∀ c ∈ whole, c.isDigit = true := by simp
  isDigit_places : ∀ c ∈ places, c.isDigit = true := by simp

namespace Numeral

/-- What stands behind the whole part. -/
def fraction (n : Numeral) : List Char := if n.places = [] then [] else '.' :: n.places

/-- The characters of a numeral. -/
def toList (n : Numeral) : List Char := n.whole ++ n.fraction

/-- The text of a numeral. -/
def text (n : Numeral) : String := String.ofList n.toList

/-- The number that the digits of a numeral spell, its point left out. -/
def magnitude (n : Numeral) : Nat := ofDigits (n.whole ++ n.places)

/-- The number of digits behind the point. -/
def scale (n : Numeral) : Nat := n.places.length

/-- Whether a decimal has room for a numeral. -/
def Fits (n : Numeral) : Prop := n.scale ≤ maxScale ∧ n.magnitude < magnitudeBound

instance (n : Numeral) : Decidable n.Fits := inferInstanceAs (Decidable (_ ∧ _))

/-- The decimal of a numeral. -/
def decimal (n : Numeral) (h : n.Fits) : Decimal := ⟨false, n.magnitude, n.scale, h.2, h.1⟩

/-- A numeral starts with a digit. -/
theorem exists_toList_eq_cons (n : Numeral) :
    ∃ c cs, n.toList = c :: cs ∧ c.isDigit = true := by
  obtain ⟨c, cs, hwhole⟩ := List.exists_cons_of_ne_nil n.whole_ne_nil
  refine ⟨c, cs ++ n.fraction, by rw [toList, hwhole, List.cons_append], ?_⟩
  exact n.isDigit_whole c (hwhole ▸ List.mem_cons_self)

theorem ofDigits_whole_le (n : Numeral) : ofDigits n.whole ≤ n.magnitude := by
  rw [magnitude, ofDigits, ofDigits, List.foldl_append]
  exact le_foldl_pushDigit _ _

end Numeral

/-- The numeral of a decimal, its sign left out. -/
def numeral (d : Decimal) : Numeral where
  whole := digits (d.magnitude / tenPow d.scale)
  places := lastDigits d.scale d.magnitude
  whole_ne_nil := digits_ne_nil _
  isDigit_whole := fun _ => isDigit_of_mem_digits
  isDigit_places := fun _ => isDigit_of_mem_lastDigits

/-- The digits of a decimal are written as its numeral. -/
theorem toList_numeral (d : Decimal) : d.numeral.toList = positional d.magnitude d.scale := by
  rw [Numeral.toList, Numeral.fraction, positional]
  by_cases hscale : d.scale = 0
  · have hplaces : d.numeral.places = [] := by simp [numeral, hscale, lastDigits]
    rw [if_pos hplaces, if_pos hscale, List.append_nil]
    simp [numeral, hscale]
  · have hplaces : d.numeral.places ≠ [] := by
      rw [← List.length_pos_iff, numeral, length_lastDigits]
      exact Nat.pos_of_ne_zero hscale
    rw [if_neg hplaces, if_neg hscale]
    rfl

/-! ## Reading digits that do not fit -/

/-- Digits for which there is no room are refused, whatever follows them. -/
theorem readUnsigned_refused_append {ds : List Char} (hds : ∀ c ∈ ds, c.isDigit = true)
    {p : Progress} (hmagnitude : p.magnitude < magnitudeBound) (hplaces : p.places ≤ maxScale)
    (h : magnitudeBound ≤ ds.foldl pushDigit p.magnitude ∨
      p.pointed = true ∧ maxScale < p.places + ds.length) (cs : List Char) :
    readUnsigned .refused p (ds ++ cs) = none := by
  induction ds generalizing p with
  | nil =>
    rcases h with h | ⟨_, h⟩
    · exact absurd h (Nat.not_le.2 hmagnitude)
    · exact absurd h (Nat.not_lt.2 hplaces)
  | cons c ds ih =>
    have hc : digit? c = some (digitValue c) := if_pos (hds c List.mem_cons_self)
    rw [List.cons_append, readUnsigned]
    by_cases hfull : p.places = maxScale
    · rw [if_pos hfull]
      rfl
    rw [if_neg hfull]
    simp only [hc]
    by_cases hpush : 10 * p.magnitude + digitValue c < magnitudeBound
    · rw [if_pos hpush]
      refine ih (fun d hd => hds d (List.mem_cons_of_mem _ hd)) hpush ?_ ?_
      · simp only [Progress.push]
        split <;> omega
      · rcases h with h | ⟨hpointed, hexcess⟩
        · exact .inl h
        · refine .inr ⟨hpointed, ?_⟩
          rw [List.length_cons] at hexcess
          simp only [Progress.push, hpointed, if_true]
          omega
    · rw [if_neg hpush]
      split <;> rfl

/-- A numeral is read as all its digits and the number of its places, if there is room for both. -/
theorem readUnsigned_toList (n : Numeral) :
    readUnsigned .refused ⟨0, 0, false, false⟩ n.toList =
      if n.Fits then some (n.magnitude, n.scale) else none := by
  let start : Progress := ⟨0, 0, false, false⟩
  by_cases hwhole : magnitudeBound ≤ n.whole.foldl pushDigit start.magnitude
  · have hbig : ¬n.Fits := fun h =>
      absurd (Nat.le_trans hwhole n.ofDigits_whole_le) (Nat.not_le.2 h.2)
    rw [if_neg hbig]
    exact readUnsigned_refused_append n.isDigit_whole (by decide) (by decide) (.inl hwhole) _
  have hroom : start.places < maxScale ∧ start.pointed = false := by decide
  rw [Numeral.toList, readUnsigned_append n.isDigit_whole (.inl hroom) (Nat.not_le.1 hwhole)]
  have hstarted : Progress.pushAll ⟨0, 0, false, false⟩ n.whole =
      ⟨ofDigits n.whole, 0, false, true⟩ := by
    rw [Progress.mk.injEq]
    simp [ofDigits, n.whole_ne_nil]
  rw [hstarted]
  by_cases hplaces : n.places = []
  · have hmagnitude : n.magnitude = ofDigits n.whole := by
      rw [Numeral.magnitude, hplaces, List.append_nil]
    have hfits : n.Fits := ⟨by simp [Numeral.scale, hplaces], hmagnitude ▸ Nat.not_le.1 hwhole⟩
    rw [if_pos hfits, Numeral.fraction, if_pos hplaces, hmagnitude, Numeral.scale, hplaces]
    rfl
  have hpoint : readUnsigned .refused ⟨ofDigits n.whole, 0, false, true⟩ n.fraction =
      readUnsigned .refused ⟨ofDigits n.whole, 0, true, true⟩ (n.places ++ []) := by
    rw [Numeral.fraction, if_neg hplaces, List.append_nil, readUnsigned,
      if_neg (by simp [maxScale])]
    rfl
  have hmagnitude : n.places.foldl pushDigit (ofDigits n.whole) = n.magnitude := by
    rw [Numeral.magnitude, ofDigits, ofDigits, List.foldl_append]
  rw [hpoint]
  by_cases hfits : n.Fits
  · have hroom : 0 + n.places.length ≤ maxScale := by
      rw [Nat.zero_add]
      exact hfits.1
    rw [if_pos hfits, readUnsigned_append n.isDigit_places (.inr hroom) (hmagnitude ▸ hfits.2),
      readUnsigned]
    simp [hmagnitude, Numeral.scale]
  · rw [if_neg hfits]
    refine readUnsigned_refused_append n.isDigit_places (Nat.not_le.1 hwhole) (Nat.zero_le _) ?_ []
    rcases Classical.not_and_iff_not_or_not.1 hfits with hscale | hlarge
    · exact .inr ⟨rfl, by simpa [Numeral.scale] using hscale⟩
    · exact .inl (hmagnitude ▸ Nat.not_lt.1 hlarge)

/-- A numeral for which a decimal has room is read as that decimal, with every digit and every
place, and any other numeral is refused. -/
theorem readExact?_text (n : Numeral) :
    readExact? n.text = if h : n.Fits then some (n.decimal h) else none := by
  obtain ⟨c, cs, htext, hc⟩ := n.exists_toList_eq_cons
  rw [readExact?, Numeral.text, String.toList_ofList, htext, readSigned_of_isDigit hc, ← htext,
    readBody, readUnsigned_toList]
  by_cases hfits : n.Fits
  · rw [if_pos hfits, dif_pos hfits]
    exact ofParts?_parts (n.decimal hfits)
  · rw [if_neg hfits, dif_neg hfits]
    rfl

end FieldFilter.Decimal
