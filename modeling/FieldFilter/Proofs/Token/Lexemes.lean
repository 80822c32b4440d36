import FieldFilter.Proofs.Token.Cuts

/-!
# Single tokens

What each class of token is cut to where its text stands in front of something else. Signs need
nothing of what follows; words and numbers need an end; a quoted text ends at its closing quote.
-/

namespace FieldFilter.Token

/-! ## Signs -/

/-- A colon is a token of its own. -/
theorem lex_colon (offset : Nat) (cs : List Char) :
    lex offset (':' :: cs) = ⟨.colon, ":", offset⟩ :: lex (offset + 1) cs :=
  lex_token rfl offset cs

/-- An opening parenthesis is a token of its own. -/
theorem lex_leftParen (offset : Nat) (cs : List Char) :
    lex offset ('(' :: cs) = ⟨.leftParen, "(", offset⟩ :: lex (offset + 1) cs :=
  lex_token rfl offset cs

/-- A closing parenthesis is a token of its own. -/
theorem lex_rightParen (offset : Nat) (cs : List Char) :
    lex offset (')' :: cs) = ⟨.rightParen, ")", offset⟩ :: lex (offset + 1) cs :=
  lex_token rfl offset cs

/-- A space is no token. -/
theorem lex_space (offset : Nat) (cs : List Char) : lex offset (' ' :: cs) = lex (offset + 1) cs :=
  lex_layout rfl offset cs

/-- Two dots are a token. -/
theorem lex_dots (offset : Nat) (cs : List Char) :
    lex offset ('.' :: '.' :: cs) = ⟨.dots, "..", offset⟩ :: lex (offset + 2) cs :=
  lex_token rfl offset _

/-- A comparison sign in front of anything but an equals sign. -/
theorem lex_comparison (op : Comparison) {cs : List Char} (h : cs.head? ≠ some '=')
    (offset : Nat) :
    lex offset (op.symbol.toList ++ cs) =
      ⟨.comparison op, op.symbol, offset⟩ :: lex (offset + utf8Length op.symbol.toList) cs := by
  cases op with
  | above =>
    have hlex := @lex_token '>' rfl offset cs
    rw [munch_above h] at hlex
    exact hlex
  | below =>
    have hlex := @lex_token '<' rfl offset cs
    rw [munch_below h] at hlex
    exact hlex
  | atLeast => exact lex_token rfl offset ('=' :: cs)
  | atMost => exact lex_token rfl offset ('=' :: cs)

/-! ## Words -/

/-- What starts a word can go on in it. -/
theorem isWordPart_of_isWordStart {c : Char} (h : isWordStart c = true) : isWordPart c = true := by
  rw [isWordStart, Bool.or_eq_true] at h
  rw [isWordPart, Char.isAlphanum, Bool.or_eq_true, Bool.or_eq_true]
  rcases h with h | h
  · exact .inl (.inl h)
  · exact .inr h

/-- What may stand in a word is no sign. -/
theorem plain_of_isWordPart {c : Char} (hc : isWordPart c = true) :
    c ∉ [':', '(', ')', '.', '>', '<', '"'] := by
  simp only [List.mem_cons, List.not_mem_nil, or_false]
  rintro (rfl | rfl | rfl | rfl | rfl | rfl | rfl) <;> cases hc

/-- What may stand in a word is no layout. -/
theorem isLayout_of_isWordPart {c : Char} (hc : isWordPart c = true) : isLayout c = false := by
  refine Bool.eq_false_iff.2 fun h => ?_
  simp only [isLayout, Bool.or_eq_true, beq_iff_eq] at h
  rcases h with ((rfl | rfl) | rfl) | rfl <;> cases hc

/-- What starts a word starts no other token. -/
theorem munch_of_isWordStart {c : Char} (hc : isWordStart c = true) (cs : List Char) :
    munch c cs = munchWord (c :: cs) := by
  rw [munch_of_plain (plain_of_isWordPart (isWordPart_of_isWordStart hc)), if_pos hc]

/-- The characters are one token of the kind wherever something ends them. -/
structure IsLexeme (cs : List Char) (kind : Kind) : Prop where
  head : ∃ c ∈ cs.head?, isWordPart c = true
  lex_append : ∀ {b : List Char}, EndsWord b → ∀ offset,
    lex offset (cs ++ b) = ⟨kind, String.ofList cs, offset⟩ :: lex (offset + utf8Length cs) b

/-- What no word or number has in it is not what a lexeme starts with. -/
theorem IsLexeme.head?_append_ne {cs : List Char} {kind : Kind} (h : IsLexeme cs kind) {d : Char}
    (hd : isWordPart d = false) (b : List Char) : (cs ++ b).head? ≠ some d := by
  obtain ⟨c, hc, hpart⟩ := h.head
  rw [List.head?_append, hc]
  rintro ⟨⟩
  rw [hd] at hpart
  cases hpart

/-- A whole word is one token. -/
theorem isLexeme_word {c : Char} {cs : List Char} (hc : isWordStart c = true)
    (hcs : cs.all isWordPart = true) : IsLexeme (c :: cs) (wordKind (c :: cs)) := by
  have hpart := isWordPart_of_isWordStart hc
  refine ⟨⟨c, rfl, hpart⟩, fun {b} hb offset => ?_⟩
  have hall : ∀ d ∈ c :: cs, isWordPart d = true := by
    intro d hd
    rcases List.mem_cons.1 hd with rfl | hd
    · exact hpart
    · exact List.all_eq_true.1 hcs d hd
  have hmunch : munch c (cs ++ b) = ⟨wordKind (c :: cs), c :: cs, b⟩ := by
    rw [munch_of_isWordStart hc, ← List.cons_append, munchWord_append hb, munchWord,
      List.takeWhile_eq_self_iff.2 hall, List.dropWhile_eq_nil_iff.2 hall, List.nil_append]
  have htext : textOf (wordKind (c :: cs)) (c :: cs) = String.ofList (c :: cs) := by
    unfold wordKind
    split <;> rfl
  rw [List.cons_append, lex_token (isLayout_of_isWordPart hpart), hmunch]
  simp only [htext]

/-- The keyword of negation is a token where a word ends. -/
theorem lex_not {b : List Char} (hb : EndsWord b) (offset : Nat) :
    lex offset ("NOT".toList ++ b) = ⟨.not, "NOT", offset⟩ :: lex (offset + 3) b :=
  (@isLexeme_word 'N' ['O', 'T'] rfl rfl).lex_append hb offset

/-- The keyword of a connective is a token where a word ends. -/
theorem lex_connective (c : Connective) {b : List Char} (hb : EndsWord b) (offset : Nat) :
    lex offset (c.keyword.toList ++ b) =
      ⟨.connective c, c.keyword, offset⟩ :: lex (offset + utf8Length c.keyword.toList) b := by
  cases c with
  | or => exact (@isLexeme_word 'O' ['R'] rfl rfl).lex_append hb offset
  | and => exact (@isLexeme_word 'A' ['N', 'D'] rfl rfl).lex_append hb offset

/-! ## Numbers and quoted texts -/

/-- Digits come before all characters that start words. -/
theorem isWordStart_of_isDigit {c : Char} (hc : c.isDigit = true) : isWordStart c = false := by
  have hle : c.toNat ≤ 57 := by
    simp only [Char.isDigit, Bool.and_eq_true, decide_eq_true_eq] at hc
    exact hc.2
  have halpha : c.isAlpha = false := by
    refine Bool.eq_false_iff.2 fun h => ?_
    rcases Bool.or_eq_true_iff.1 h with hupper | hlower
    · have h65 : 65 ≤ c.toNat := (of_decide_eq_true hupper).1
      omega
    · have h97 : 97 ≤ c.toNat := of_decide_eq_true (Bool.and_eq_true_iff.1 hlower).1
      omega
  rw [isWordStart, halpha, Bool.false_or, beq_eq_false_iff_ne]
  rintro rfl
  cases hc

/-- A digit can stand in a word. -/
theorem isWordPart_of_isDigit {c : Char} (h : c.isDigit = true) : isWordPart c = true := by
  rw [isWordPart, Char.isAlphanum, h, Bool.or_true, Bool.true_or]

/-- What starts a number starts no other token. -/
theorem munch_of_isDigit {c : Char} (hc : c.isDigit = true) (cs : List Char) :
    munch c cs = munchNumber (c :: cs) := by
  have hstart : isWordStart c ≠ true := Bool.eq_false_iff.1 (isWordStart_of_isDigit hc)
  rw [munch_of_plain (plain_of_isWordPart (isWordPart_of_isDigit hc)), if_neg hstart, if_pos hc]

/-- Digits alone are cut behind the last one. -/
theorem munchNumber_whole {ds : List Char} (hds : ∀ c ∈ ds, c.isDigit = true) :
    munchNumber ds = ⟨.number, ds, []⟩ := by
  simp [munchNumber, List.takeWhile_eq_self_iff.2 hds, List.dropWhile_eq_nil_iff.2 hds, fraction]

/-- Digits on both sides of a point are cut behind the last one. -/
theorem munchNumber_point {ds es : List Char} (hds : ∀ c ∈ ds, c.isDigit = true)
    (hes : ∀ c ∈ es, c.isDigit = true) (hne : es ≠ []) :
    munchNumber (ds ++ '.' :: es) = ⟨.number, ds ++ '.' :: es, []⟩ := by
  have hpoint : ∀ c ∈ ('.' :: es).head?, c.isDigit = false := by
    rintro c ⟨⟩
    rfl
  simp [munchNumber, takeWhile_append_of_head hpoint, dropWhile_append_of_head hpoint, fraction,
    hne, List.takeWhile_eq_self_iff.2 hds, List.dropWhile_eq_nil_iff.2 hds,
    List.takeWhile_eq_self_iff.2 hes]

/-- A whole number is one token. -/
theorem isLexeme_number {c : Char} {cs : List Char} (hc : c.isDigit = true)
    (hcs : munchNumber (c :: cs) = ⟨.number, c :: cs, []⟩) : IsLexeme (c :: cs) .number := by
  have hpart := isWordPart_of_isDigit hc
  refine ⟨⟨c, rfl, hpart⟩, fun {b} hb offset => ?_⟩
  have hmunch : munch c (cs ++ b) = ⟨.number, c :: cs, b⟩ := by
    rw [munch_of_isDigit hc, ← List.cons_append, munchNumber_append hb, hcs, List.nil_append]
  rw [List.cons_append, lex_token (isLayout_of_isWordPart hpart), hmunch]
  rfl

/-- A quoted text without quotes in it is one token. -/
theorem lex_quoted {inner : List Char} (h : '"' ∉ inner) (offset : Nat) (b : List Char) :
    lex offset ('"' :: (inner ++ '"' :: b)) =
      ⟨.quoted, String.ofList inner, offset⟩ ::
        lex (offset + utf8Length ('"' :: inner ++ ['"'])) b := by
  have hmunch : munch '"' (inner ++ '"' :: b) = ⟨.quoted, '"' :: inner ++ ['"'], b⟩ :=
    munchQuoted_of_not_mem h b
  rw [lex_token rfl, hmunch]
  simp [textOf]

end FieldFilter.Token
