import FieldFilter.Decimal.Reader

/-!
# Reading back written decimals

A decimal is written with all digits of its magnitude and a point in front of its last `scale`
places. Reading pushes these digits one by one, never meets a digit that does not fit, and ends at
the magnitude and the scale it started from. Only the sign of a zero is lost.
-/

namespace FieldFilter

/-- Digits behind a number shift it to the left and fill the gap. -/
theorem foldl_pushDigit (n : Nat) (cs : List Char) :
    cs.foldl pushDigit n = n * tenPow cs.length + ofDigits cs := by
  induction cs generalizing n with
  | nil => simp [ofDigits]
  | cons c cs ih =>
    have hzero : ofDigits (c :: cs) = digitValue c * tenPow cs.length + ofDigits cs := by
      rw [ofDigits, List.foldl_cons, ih, pushDigit, Nat.mul_zero, Nat.zero_add]
    rw [List.foldl_cons, ih, hzero, List.length_cons, tenPow_succ, pushDigit, Nat.add_mul,
      Nat.add_assoc, Nat.mul_comm 10 n, Nat.mul_assoc]

/-- More digits make no smaller number. -/
theorem le_foldl_pushDigit (n : Nat) (cs : List Char) : n ≤ cs.foldl pushDigit n := by
  rw [foldl_pushDigit]
  exact Nat.le_trans (Nat.le_mul_of_pos_right n (tenPow_pos _)) (Nat.le_add_right _ _)

/-- The first places and the last ones make up the number. -/
theorem foldl_pushDigit_lastDigits (width n : Nat) :
    (lastDigits width n).foldl pushDigit (n / tenPow width) = n := by
  rw [foldl_pushDigit, length_lastDigits, ofDigits_lastDigits, Nat.mul_comm]
  exact Nat.div_add_mod n (tenPow width)

theorem foldl_pushDigit_digits (n : Nat) : (digits n).foldl pushDigit 0 = n := ofDigits_digits n

namespace Decimal

variable {excess : Excess}

/-- The numeral after a run of digits. -/
def Progress.pushAll (p : Progress) (ds : List Char) : Progress :=
  ds.foldl (fun p c => p.push (digitValue c)) p

@[simp] theorem Progress.magnitude_pushAll (p : Progress) (ds : List Char) :
    (p.pushAll ds).magnitude = ds.foldl pushDigit p.magnitude := by
  induction ds generalizing p with
  | nil => rfl
  | cons c ds ih => exact ih _

@[simp] theorem Progress.pointed_pushAll (p : Progress) (ds : List Char) :
    (p.pushAll ds).pointed = p.pointed := by
  induction ds generalizing p with
  | nil => rfl
  | cons c ds ih => exact ih _

@[simp] theorem Progress.started_pushAll (p : Progress) (ds : List Char) :
    (p.pushAll ds).started = (p.started || !ds.isEmpty) := by
  induction ds generalizing p with
  | nil => simp [Progress.pushAll]
  | cons c ds ih =>
    have h := ih (p.push (digitValue c))
    rw [Progress.pushAll, List.foldl_cons]
    refine h.trans ?_
    simp [Progress.push]

@[simp] theorem Progress.places_pushAll (p : Progress) (ds : List Char) :
    (p.pushAll ds).places = if p.pointed then p.places + ds.length else p.places := by
  induction ds generalizing p with
  | nil => simp [Progress.pushAll]
  | cons c ds ih =>
    have h := ih (p.push (digitValue c))
    simp only [Progress.push] at h
    rw [Progress.pushAll, List.foldl_cons]
    refine h.trans ?_
    split <;> simp [Nat.add_assoc, Nat.add_comm 1]

/-- Digits that fit are pushed one after the other. -/
theorem readUnsigned_append {ds : List Char} (hds : ∀ c ∈ ds, c.isDigit = true) {p : Progress}
    (hroom : p.places < maxScale ∧ p.pointed = false ∨ p.places + ds.length ≤ maxScale)
    (hfit : ds.foldl pushDigit p.magnitude < magnitudeBound) (cs : List Char) :
    readUnsigned excess p (ds ++ cs) = readUnsigned excess (p.pushAll ds) cs := by
  induction ds generalizing p with
  | nil => rfl
  | cons c ds ih =>
    have hc : digit? c = some (digitValue c) := if_pos (hds c List.mem_cons_self)
    have hplaces : p.places ≠ maxScale := by
      rw [List.length_cons] at hroom
      omega
    have hpush : 10 * p.magnitude + digitValue c < magnitudeBound :=
      Nat.lt_of_le_of_lt (le_foldl_pushDigit _ ds) hfit
    rw [List.cons_append, readUnsigned, if_neg hplaces]
    simp only [hc, if_pos hpush]
    refine ih (fun d hd => hds d (List.mem_cons_of_mem _ hd)) ?_ hfit
    rcases hroom with ⟨hlt, hpointed⟩ | hle
    · left
      simp [Progress.push, hpointed, hlt]
    · right
      rw [List.length_cons] at hle
      simp only [Progress.push]
      split <;> omega

/-- The digits of a number that fits are read as that number. -/
theorem readUnsigned_digits {n : Nat} (hn : n < magnitudeBound) (cs : List Char) :
    readUnsigned excess ⟨0, 0, false, false⟩ (digits n ++ cs) =
      readUnsigned excess ⟨n, 0, false, true⟩ cs := by
  have hfit : (digits n).foldl pushDigit 0 < magnitudeBound := by
    rw [foldl_pushDigit_digits]
    exact hn
  rw [readUnsigned_append (fun _ => isDigit_of_mem_digits) (.inl ⟨by decide, rfl⟩) hfit]
  congr 1
  rw [Progress.mk.injEq]
  simp [digits_ne_nil n, foldl_pushDigit_digits]

/-- The positional text of a magnitude is read as the magnitude and its places. -/
theorem readUnsigned_positional {magnitude scale : Nat} (hm : magnitude < magnitudeBound)
    (hs : scale ≤ maxScale) :
    readUnsigned excess ⟨0, 0, false, false⟩ (positional magnitude scale) =
      some (magnitude, scale) := by
  unfold positional
  split
  · rename_i hzero
    have h := @readUnsigned_digits excess _ hm []
    rw [List.append_nil] at h
    rw [h, hzero]
    rfl
  · have hwhole : magnitude / tenPow scale < magnitudeBound :=
      Nat.lt_of_le_of_lt (Nat.div_le_self _ _) hm
    have hpoint : digit? '.' = none := rfl
    have hsign : ('.' == '.' && !false) = true := rfl
    have hfit : (lastDigits scale magnitude).foldl pushDigit (magnitude / tenPow scale) <
        magnitudeBound := by
      rw [foldl_pushDigit_lastDigits]
      exact hm
    have hroom : 0 + (lastDigits scale magnitude).length ≤ maxScale := by
      rw [length_lastDigits, Nat.zero_add]
      exact hs
    rw [readUnsigned_digits hwhole, readUnsigned, if_neg (by simp [maxScale])]
    simp only [hpoint]
    rw [if_pos hsign, ← List.append_nil (lastDigits scale magnitude),
      readUnsigned_append (fun _ => isDigit_of_mem_lastDigits) (.inr hroom) hfit, readUnsigned]
    simp [foldl_pushDigit_lastDigits]

/-- The first character of a number's digits. -/
theorem exists_positional_eq_cons (magnitude scale : Nat) :
    ∃ c cs, positional magnitude scale = c :: cs ∧ c.isDigit = true := by
  have hdigits (n : Nat) : ∃ c cs, digits n = c :: cs ∧ c.isDigit = true := by
    obtain ⟨c, cs, h⟩ := List.exists_cons_of_ne_nil (digits_ne_nil n)
    exact ⟨c, cs, h, isDigit_of_mem_digits (h ▸ List.mem_cons_self)⟩
  unfold positional
  split
  · exact hdigits magnitude
  · obtain ⟨c, cs, h, hc⟩ := hdigits (magnitude / tenPow scale)
    exact ⟨c, cs ++ '.' :: lastDigits scale magnitude, by rw [h, List.cons_append], hc⟩

/-- A numeral that starts with a digit has no sign. -/
theorem readSigned_of_isDigit {c : Char} (hc : c.isDigit = true) (cs : List Char) :
    readSigned excess (c :: cs) = readBody excess false (c :: cs) := by
  unfold readSigned
  split
  · rename_i h
    cases h
    cases hc
  · rename_i h
    cases h
    cases hc
  · rfl

/-- A written decimal is read as itself, except that a zero loses its sign. -/
theorem readSigned_toList (d : Decimal) :
    readSigned excess d.toList =
      ofParts? (d.negative && d.magnitude != 0) d.magnitude d.scale := by
  have hbody (negative : Bool) : readBody excess negative (positional d.magnitude d.scale) =
      ofParts? (negative && d.magnitude != 0) d.magnitude d.scale := by
    unfold readBody
    rw [readUnsigned_positional d.magnitude_lt d.scale_le]
    rfl
  unfold toList
  cases hd : d.negative with
  | true => exact hbody true
  | false =>
    obtain ⟨c, cs, h, hc⟩ := exists_positional_eq_cons d.magnitude d.scale
    rw [if_neg Bool.false_ne_true, h, readSigned_of_isDigit hc, ← h, hbody]

/-- The text of a decimal without a minus sign spells the decimal exactly. -/
theorem readExact?_toString {d : Decimal} (hd : d.negative = false) :
    readExact? d.toString = some d := by
  rw [readExact?, toString, String.toList_ofList, readSigned_toList]
  rw [← ofParts?_parts d, hd]
  rfl

/-- The decimal without the minus sign that a zero may have. -/
def dropZeroSign (d : Decimal) : Decimal :=
  ⟨d.negative && d.magnitude != 0, d.magnitude, d.scale, d.magnitude_lt, d.scale_le⟩

@[simp] theorem scale_dropZeroSign (d : Decimal) : d.dropZeroSign.scale = d.scale := rfl

/-- Minus zero and zero are one number. -/
theorem compare_dropZeroSign (d : Decimal) : d.dropZeroSign.compare d = .eq := by
  have hmantissa : d.dropZeroSign.mantissa = d.mantissa := by
    by_cases hzero : d.magnitude = 0
    · simp [mantissa, dropZeroSign, hzero]
    · simp [mantissa, dropZeroSign, hzero]
  rw [compare, hmantissa, scale_dropZeroSign]
  exact Std.compare_self

/-- The text of a decimal denotes the decimal, except that a zero loses its sign. -/
theorem readLenient?_toString (d : Decimal) : readLenient? d.toString = some d.dropZeroSign := by
  have hread : readNearest? d.toString = some d.dropZeroSign := by
    rw [readNearest?, toString, String.toList_ofList, readSigned_toList]
    exact ofParts?_parts d.dropZeroSign
  rw [readLenient?, hread]
  rfl

end Decimal

end FieldFilter
