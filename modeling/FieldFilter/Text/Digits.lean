/-!
# Decimal digits

Natural numbers and their decimal digits. `digits` writes a number without leading zeros,
`lastDigits` writes its lowest digits at a fixed width, and `ofDigits` reads a run of digits;
reading takes back what either of them writes.
-/

namespace FieldFilter

/-- A power of ten. -/
def tenPow (n : Nat) : Nat := Nat.pow 10 n

/-- The least power of ten. -/
@[simp] theorem tenPow_zero : tenPow 0 = 1 := rfl

/-- The next power of ten. -/
theorem tenPow_succ (n : Nat) : tenPow (n + 1) = 10 * tenPow n := Nat.mul_comm _ _

/-- Powers of ten are positive. -/
theorem tenPow_pos (n : Nat) : 0 < tenPow n := Nat.pow_pos (by decide)

/-- The character of a digit below ten. -/
def digitChar (d : Nat) : Char := Char.ofNat ('0'.toNat + d)

/-- The value of a digit character. -/
def digitValue (c : Char) : Nat := c.toNat - '0'.toNat

/-- The value of a character if it is a decimal digit. -/
def digit? (c : Char) : Option Nat := if c.isDigit then some (digitValue c) else none

/-- A number in decimal digits, without leading zeros. -/
def digits (n : Nat) : List Char :=
  if n < 10 then [digitChar n] else digits (n / 10) ++ [digitChar (n % 10)]
termination_by n

/-- The lowest digits of a number, at a given width. -/
def lastDigits : Nat → Nat → List Char
  | 0, _ => []
  | width + 1, n => lastDigits width (n / 10) ++ [digitChar (n % 10)]

/-- The number after one more digit. -/
def pushDigit (n : Nat) (c : Char) : Nat := 10 * n + digitValue c

/-- The number that a run of digits spells. -/
def ofDigits (cs : List Char) : Nat := cs.foldl pushDigit 0

/-- The value of a written digit is the digit. -/
theorem digitValue_digitChar {d : Nat} (h : d < 10) : digitValue (digitChar d) = d := by
  have : ∀ e : Fin 10, digitValue (digitChar e) = e := by decide
  exact this ⟨d, h⟩

/-- A written digit is a digit. -/
theorem isDigit_digitChar {d : Nat} (h : d < 10) : (digitChar d).isDigit = true := by
  have : ∀ e : Fin 10, (digitChar e).isDigit = true := by decide
  exact this ⟨d, h⟩

/-- A further digit is pushed behind the others. -/
theorem ofDigits_concat (cs : List Char) (c : Char) :
    ofDigits (cs ++ [c]) = pushDigit (ofDigits cs) c := by
  simp [ofDigits]

/-- Reading the digits of a number gives the number. -/
theorem ofDigits_digits (n : Nat) : ofDigits (digits n) = n := by
  induction n using digits.induct with
  | case1 n h => simp [digits, h, ofDigits, pushDigit, digitValue_digitChar h]
  | case2 n h ih =>
    rw [digits, if_neg h, ofDigits_concat, ih, pushDigit,
      digitValue_digitChar (Nat.mod_lt _ (by decide))]
    omega

/-- Fixed-width digits read back as the number, less what the width cuts off. -/
theorem ofDigits_lastDigits (width n : Nat) :
    ofDigits (lastDigits width n) = n % tenPow width := by
  induction width generalizing n with
  | zero => simp [lastDigits, ofDigits, Nat.mod_one]
  | succ width ih =>
    rw [lastDigits, ofDigits_concat, ih, pushDigit,
      digitValue_digitChar (Nat.mod_lt _ (by decide)), tenPow_succ, Nat.mod_mul]
    omega

/-- As many digits are written as asked for. -/
@[simp] theorem length_lastDigits (width n : Nat) : (lastDigits width n).length = width := by
  induction width generalizing n with
  | zero => rfl
  | succ width ih => simp [lastDigits, ih]

/-- Every number has a digit. -/
theorem digits_ne_nil (n : Nat) : digits n ≠ [] := by
  rw [digits]
  split <;> simp

/-- Only zero is written with a zero in front. -/
theorem eq_zero_of_digits {n : Nat} {cs : List Char} (h : digits n = '0' :: cs) : n = 0 := by
  induction n using digits.induct generalizing cs with
  | case1 n hn =>
    rw [digits, if_pos hn, List.cons.injEq] at h
    have hvalue := digitValue_digitChar hn
    rw [h.1] at hvalue
    exact hvalue.symm
  | case2 n hn ih =>
    obtain ⟨d, ds, hd⟩ := List.exists_cons_of_ne_nil (digits_ne_nil (n / 10))
    rw [digits, if_neg hn, hd, List.cons_append, List.cons.injEq] at h
    rw [h.1] at hd
    have := ih hd
    omega

/-- Numbers are written in digits. -/
theorem isDigit_of_mem_digits {n : Nat} {c : Char} (h : c ∈ digits n) : c.isDigit = true := by
  induction n using digits.induct with
  | case1 n hn =>
    rw [digits, if_pos hn, List.mem_singleton] at h
    exact h ▸ isDigit_digitChar hn
  | case2 n hn ih =>
    rw [digits, if_neg hn, List.mem_append, List.mem_singleton] at h
    rcases h with h | h
    · exact ih h
    · exact h ▸ isDigit_digitChar (Nat.mod_lt _ (by decide))

/-- The last digits of a number are digits, zeros in front included. -/
theorem isDigit_of_mem_lastDigits {width n : Nat} {c : Char} (h : c ∈ lastDigits width n) :
    c.isDigit = true := by
  induction width generalizing n with
  | zero => simp [lastDigits] at h
  | succ width ih =>
    rw [lastDigits, List.mem_append, List.mem_singleton] at h
    rcases h with h | h
    · exact ih h
    · exact h ▸ isDigit_digitChar (Nat.mod_lt _ (by decide))

end FieldFilter
