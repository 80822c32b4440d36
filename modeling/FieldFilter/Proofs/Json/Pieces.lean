import FieldFilter.Json.Reader
import FieldFilter.Json.Writer

/-!
# Pieces of written documents

A document is written as the spellings of its lexemes, with nothing between them. Taken apart
again, it falls into the same lexemes: a written text is scanned up to its own closing quote, a
whole number of 64 bits ends in front of anything but a number, and every other spelling ends where
the next one starts, whatever that is.
-/

namespace FieldFilter.Json

namespace Quoted

/-- The two digits of a control character are read as its code. -/
theorem hexValue?_hexChar {n : Nat} (h : n < 0x20) :
    hexValue? '0' '0' (hexChar (n / 16)) (hexChar (n % 16)) = some n := by
  have hall : ∀ i : Fin 0x20,
      hexValue? '0' '0' (hexChar (i.val / 16)) (hexChar (i.val % 16)) = some i.val := by decide
  exact hall ⟨n, h⟩

/-- A character that needs no escape is scanned as itself. -/
theorem scan_plain {c : Char} (hquote : c ≠ '"') (hbackslash : c ≠ '\\')
    (hcontrol : ¬c.toNat < 0x20) (rest : List Char) :
    scan none (c :: rest) = (scan none rest).push c := by
  rw [scan.eq_def]
  split
  case h_7 =>
    rename_i h
    cases h
    rw [if_neg hcontrol]
    rfl
  all_goals
    rename_i h
    cases h <;> contradiction

/-- A written character is scanned as itself. -/
theorem scan_encodeChar (c : Char) (rest : List Char) :
    scan none (encodeChar c ++ rest) = (scan none rest).push c := by
  unfold encodeChar
  iterate 7
    split
    · subst c
      rfl
  split
  · rename_i hcontrol
    have hlow : isTrailing c.toNat = false ∧ isLeading c.toNat = false := by
      simp only [isTrailing, isLeading, Bool.and_eq_false_iff, decide_eq_false_iff_not]
      omega
    simp only [List.cons_append, List.nil_append, scan, hexValue?_hexChar hcontrol,
      Ending.pushCode, hlow.1, hlow.2, Char.ofNat_toNat]
    rfl
  · rename_i hquote hbackslash _ _ _ _ _ hcontrol
    exact scan_plain hquote hbackslash hcontrol rest

/-- A written text is scanned up to its closing quote. -/
theorem scan_flatMap_encodeChar (cs rest : List Char) :
    scan none (cs.flatMap encodeChar ++ '"' :: rest) = .closed (some cs) rest := by
  induction cs with
  | nil => rfl
  | cons c cs ih =>
    rw [List.flatMap_cons, List.append_assoc, scan_encodeChar, ih]
    rfl

end Quoted

namespace Numeral

/-- The text does not go on with a number that ends in front of it. -/
def EndsNumber (cs : List Char) : Prop :=
  ∀ c ∈ cs.head?, c.isDigit = false ∧ c ≠ '.' ∧ c ≠ 'e' ∧ c ≠ 'E'

variable {n : Nat} {ds rest : List Char}

/-- A run of digits is taken up to its end. -/
theorem takeDigits_append (hds : ∀ c ∈ ds, c.isDigit = true) (hne : ds ≠ [])
    (hrest : EndsNumber rest) : takeDigits (ds ++ rest) = .ok (ds, rest) := by
  have hstop : rest.takeWhile Char.isDigit = [] ∧ rest.dropWhile Char.isDigit = rest := by
    cases rest with
    | nil => exact ⟨rfl, rfl⟩
    | cons c cs =>
      have hc := (hrest c rfl).1
      simp [hc]
  have htake : (ds ++ rest).takeWhile Char.isDigit = ds := by
    rw [List.takeWhile_append_of_pos hds, hstop.1, List.append_nil]
  have hdrop : (ds ++ rest).dropWhile Char.isDigit = rest := by
    rw [List.dropWhile_append_of_pos hds, hstop.2]
  obtain ⟨c, cs, rfl⟩ := List.exists_cons_of_ne_nil hne
  simp only [takeDigits, htake, hdrop]

/-- The digits of a number are taken as a whole part. -/
theorem takeWhole_digits (hrest : EndsNumber rest) :
    takeWhole (digits n ++ rest) = .ok (digits n, rest) := by
  obtain ⟨c, ds, hd⟩ := List.exists_cons_of_ne_nil (digits_ne_nil n)
  have hdigits : ∀ c ∈ digits n, c.isDigit = true := fun _ => isDigit_of_mem_digits
  have htake := takeDigits_append hdigits (digits_ne_nil n) hrest
  by_cases hc : c = '0'
  · -- no other digit follows a zero in front
    subst hc
    have hn : n = 0 := eq_zero_of_digits hd
    subst hn
    have hempty : rest.takeWhile Char.isDigit = [] := by
      cases rest with
      | nil => rfl
      | cons c cs => simp [(hrest c rfl).1]
    have hzero : digits 0 = ['0'] := by
      rw [digits]
      rfl
    rw [hzero, List.cons_append, List.nil_append]
    simp only [takeWhole, hempty]
    rfl
  · rw [← htake, hd, List.cons_append]
    unfold takeWhole
    split
    · rename_i h
      exact absurd (List.cons.inj h).1 hc
    · rfl

/-- The digits of a number are taken as that number. -/
theorem take_digits (hrest : EndsNumber rest) :
    take (digits n ++ rest) = .ok (⟨false, digits n, none, none⟩, rest) := by
  have hminus : takeMinus (digits n ++ rest) = (false, digits n ++ rest) := by
    unfold takeMinus
    split
    · rename_i cs h
      obtain ⟨c, ds, hd⟩ := List.exists_cons_of_ne_nil (digits_ne_nil n)
      have hc : c.isDigit = true := isDigit_of_mem_digits (hd ▸ List.mem_cons_self)
      rw [hd, List.cons_append, List.cons.injEq] at h
      rw [h.1] at hc
      cases hc
    · rfl
  have hfraction : takeFraction rest = .ok (none, rest) := by
    unfold takeFraction
    split
    · exact absurd rfl (hrest _ rfl).2.1
    · rfl
  have hexponent : takeExponent rest = .ok (none, rest) := by
    cases rest with
    | nil => rfl
    | cons c cs =>
      have hc := (hrest c rfl).2.2
      exact if_neg (by simpa using hc)
  simp only [take, hminus, takeWhole_digits hrest, hfraction, hexponent, bind, Except.bind, pure,
    Except.pure]

/-- A whole number that fits 64 bits is kept. -/
theorem number?_digits (hn : n < significandBound) :
    number? ⟨false, digits n, none, none⟩ = some (.natural n) := by
  simp only [number?, ofDigits_digits]
  rw [if_neg (Nat.not_le_of_lt hn)]
  rfl

/-- A whole number that is not negative fits 64 bits. -/
theorem lt_of_number? {numeral : Numeral} (h : numeral.number? = some (.natural n)) :
    n < significandBound := by
  have hbinary (below : Bool) : numeral.binary?.map (Number.binary below) ≠ some (.natural n) := by
    cases numeral.binary? <;> simp
  simp only [number?] at h
  split at h
  · split at h
    · exact absurd h (hbinary _)
    · rename_i hlt
      split at h
      · cases h
        exact Nat.lt_of_not_le hlt
      · split at h
        · exact absurd h (hbinary _)
        · cases h
  · exact absurd h (hbinary _)

end Numeral

/-! ## Single pieces -/

/-- The first piece of a text that does not start with a blank. -/
theorem pieces_cons {c : Char} {cs rest : List Char} {p : Piece} (hc : Piece.isBlank c = false)
    (hfirst : Piece.first c cs = (p, rest)) : pieces (c :: cs) = p :: pieces rest := by
  rw [pieces]
  split
  · rename_i h
    simp [hc] at h
  · rename_i d ds h
    simp only [List.dropWhile_cons, hc] at h
    cases h
    rw [hfirst]

/-- A whole number of 64 bits is cut off in front of anything that is not part of a number. -/
theorem pieces_digits_append {n : Nat} (hn : n < Numeral.significandBound) {rest : List Char}
    (hrest : Numeral.EndsNumber rest) :
    pieces (digits n ++ rest) = .sound (.number (.natural n)) :: pieces rest := by
  have hnumber : Piece.number (digits n ++ rest) = (.sound (.number (.natural n)), rest) := by
    simp only [Piece.number, Numeral.take_digits hrest, Numeral.number?_digits hn]
  obtain ⟨c, ds, hd⟩ := List.exists_cons_of_ne_nil (digits_ne_nil n)
  have hc : c.isDigit = true := isDigit_of_mem_digits (hd ▸ List.mem_cons_self)
  rw [hd, List.cons_append] at hnumber ⊢
  have hblank : Piece.isBlank c = false := by
    unfold Piece.isBlank
    simp only [Bool.or_eq_false_iff, beq_eq_false_iff_ne]
    refine ⟨⟨⟨?_, ?_⟩, ?_⟩, ?_⟩ <;> (rintro rfl; cases hc)
  refine pieces_cons hblank ?_
  unfold Piece.first
  split
  case h_11 =>
    rw [if_pos (by simp [hc])]
    exact hnumber
  all_goals cases hc

/-- Whether a lexeme is a number, whose spelling may go on with what follows it. -/
def Lexeme.isNumber : Lexeme → Bool
  | number _ => true
  | _ => false

/-- The spelling of a lexeme that is not a number is cut off as that lexeme, whatever follows. -/
theorem pieces_toList_append {l : Lexeme} (hl : l.isNumber = false) (rest : List Char) :
    pieces (l.toList ++ rest) = .sound l :: pieces rest := by
  cases l with
  | beginObject | endObject | beginArray | endArray | colon | comma => exact pieces_cons rfl rfl
  | null => exact pieces_cons rfl rfl
  | boolean value =>
    cases value with
    | true => exact pieces_cons rfl rfl
    | false => exact pieces_cons rfl rfl
  | number n => cases hl
  | text s =>
    have hspell : (Lexeme.text s).toList ++ rest =
        '"' :: (s.toList.flatMap Quoted.encodeChar ++ '"' :: rest) := by
      simp [Lexeme.toList, Quoted.encode]
    rw [hspell]
    refine pieces_cons rfl ?_
    change Piece.quoted _ = _
    rw [Piece.quoted, Quoted.scan_flatMap_encodeChar]
    simp only [String.ofList_toList]

/-- No number goes on with the spelling of another lexeme. -/
theorem endsNumber_toList_append {l : Lexeme} (hl : l.isNumber = false) (rest : List Char) :
    Numeral.EndsNumber (l.toList ++ rest) := by
  intro c hc
  cases l with
  | number n => cases hl
  | boolean value => cases value <;> (cases hc; decide)
  | text s =>
    have hquote : ((Lexeme.text s).toList ++ rest).head? = some '"' := by
      simp [Lexeme.toList, Quoted.encode]
    rw [hquote] at hc
    cases hc
    decide
  | _ => cases hc; decide

/-! ## Rows of lexemes -/

/-- A row of lexemes that can be told apart in its spelling: its numbers are whole and of 64 bits,
and none follows another. -/
inductive Legible : List Lexeme → Prop
  | nil : Legible []
  | cons {l : Lexeme} {ls : List Lexeme} (hl : l.isNumber = false) (h : Legible ls) :
      Legible (l :: ls)
  | natural {n : Nat} {ls : List Lexeme} (hn : n < Numeral.significandBound)
      (hls : ∀ l ∈ ls.head?, l.isNumber = false) (h : Legible ls) :
      Legible (.number (.natural n) :: ls)

namespace Legible

variable {l : Lexeme} {ls ls' : List Lexeme}

theorem singleton (hl : l.isNumber = false) : Legible [l] := cons hl nil

/-- Rows with a lexeme between them that is not a number. -/
theorem append_cons (h : Legible ls) (hl : l.isNumber = false) (h' : Legible ls') :
    Legible (ls ++ l :: ls') := by
  induction h with
  | nil => exact cons hl h'
  | cons hm _ ih => exact cons hm ih
  | @natural n ls hn hls _ ih =>
    refine natural hn ?_ ih
    cases ls with
    | nil =>
      intro m hm
      cases hm
      exact hl
    | cons => exact hls

theorem separate {rows : List (List Lexeme)} (h : ∀ row ∈ rows, Legible row) :
    Legible (Writer.separate rows) := by
  induction rows with
  | nil => exact nil
  | cons row rows ih =>
    have hrow := h row List.mem_cons_self
    have hrows := ih fun r hr => h r (List.mem_cons_of_mem _ hr)
    cases rows with
    | nil => exact hrow
    | cons => exact hrow.append_cons rfl hrows

/-- An array of legible values. -/
theorem array {values : List (List Lexeme)} (h : ∀ value ∈ values, Legible value) :
    Legible (Writer.array values) :=
  cons rfl ((separate h).append_cons rfl nil)

/-- An object of legible values. -/
theorem object {members : List (String × List Lexeme)} (h : ∀ m ∈ members, Legible m.2) :
    Legible (Writer.object members) := by
  have hrows : ∀ row ∈ members.map fun m => Writer.member m.1 m.2, Legible row := by
    intro row hrow
    obtain ⟨m, hm, rfl⟩ := List.mem_map.1 hrow
    exact cons rfl (cons rfl (h m hm))
  exact cons rfl ((separate hrows).append_cons rfl nil)

end Legible

/-- A legible document falls into the lexemes that it was written from. -/
theorem pieces_spell {ls : List Lexeme} (hls : Legible ls) :
    pieces (Lexeme.spell ls).toList = ls.map Piece.sound := by
  rw [Lexeme.spell, String.toList_ofList]
  induction hls with
  | nil =>
    rw [List.flatMap_nil, pieces]
    rfl
  | cons hl _ ih =>
    rw [List.flatMap_cons, pieces_toList_append hl, ih]
    rfl
  | @natural n ls hn hls _ ih =>
    have hrest : Numeral.EndsNumber (ls.flatMap Lexeme.toList) := by
      cases ls with
      | nil =>
        intro c hc
        cases hc
      | cons l ls => exact endsNumber_toList_append (hls l rfl) _
    rw [List.flatMap_cons, List.map_cons, ← ih]
    exact pieces_digits_append hn hrest

/-! ## Pieces of any text -/

/-- A whole number among the pieces of a document has 64 bits. -/
def Piece.Fits (p : Piece) : Prop :=
  ∀ n, p = .sound (.number (.natural n)) → n < Numeral.significandBound

theorem Piece.fits_first (c : Char) (cs : List Char) : (first c cs).1.Fits := by
  have hliteral {lexeme : Lexeme} (hl : lexeme.isNumber = false) (flaw : Fault → Flaw)
      (cs : List Char) : (literal lexeme flaw cs).1.Fits := by
    intro n hn
    simp only [literal] at hn
    split at hn
    · cases hn
      cases hl
    · cases hn
  have hquoted : (quoted cs).1.Fits := by
    intro n hn
    unfold quoted at hn
    split at hn <;> cases hn
  have hnumber (cs : List Char) : (number cs).1.Fits := by
    intro n hn
    unfold number at hn
    split at hn
    · cases hn
    · split at hn
      · rename_i h
        cases hn
        exact Numeral.lt_of_number? h
      · cases hn
  unfold first
  split
  case h_7 | h_8 | h_9 => exact hliteral rfl _ _
  case h_10 => exact hquoted
  case h_11 =>
    split
    · exact hnumber _
    · rintro n ⟨⟩
  all_goals rintro n ⟨⟩

/-- The pieces of a document fit. -/
theorem fits_of_mem_pieces {cs : List Char} : ∀ p ∈ pieces cs, p.Fits := by
  fun_induction pieces cs with
  | case1 => simp
  | case2 _ c rest _ ih =>
    intro p hp
    rcases List.mem_cons.1 hp with rfl | hp
    · exact Piece.fits_first c rest
    · exact ih p hp

end FieldFilter.Json
