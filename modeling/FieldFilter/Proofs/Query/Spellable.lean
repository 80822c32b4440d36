import FieldFilter.Proofs.Query.CanonicalText

/-!
# Parsed queries are spellable

The lexer gives a kind to a text only if the text has the form of that kind: identifiers are names,
numbers start with a digit, quoted texts have no quotes in them. The parser passes these texts on as
they are. So whatever is parsed can be written again.
-/

namespace FieldFilter

open Token

/-! ## Texts of tokens -/

/-- The text of the token has the form that its kind asks for. -/
def Token.WellFormed (t : Token) : Prop :=
  match t.kind with
  | .identifier => isName t.text = true
  | .number => ∃ c cs, t.text.toList = c :: cs ∧ c.isDigit = true
  | .quoted => '"' ∉ t.text.toList
  | _ => True

namespace Token

/-- A word that is an identifier is not reserved. -/
theorem not_mem_reservedWords {cs : List Char} (h : wordKind cs = .identifier) :
    String.ofList cs ∉ reservedWords := by
  have hne {word : String} (hword : wordKind word.toList ≠ .identifier) :
      String.ofList cs ≠ word := by
    rintro rfl
    rw [String.toList_ofList] at hword
    exact hword h
  simp only [reservedWords, List.mem_cons, List.not_mem_nil, or_false, not_or]
  exact ⟨hne (by decide), hne (by decide), hne (by decide), hne (by decide), hne (by decide)⟩

/-- The word at the head of a text is a name if it is an identifier. -/
theorem isName_takeWhile {c : Char} {cs : List Char} (hc : isWordStart c = true)
    (h : wordKind ((c :: cs).takeWhile isWordPart) = .identifier) :
    isName (String.ofList ((c :: cs).takeWhile isWordPart)) = true := by
  have hpart := isWordPart_of_isWordStart hc
  have hreserved := not_mem_reservedWords h
  rw [List.takeWhile_cons_of_pos hpart] at hreserved ⊢
  simp only [isName, String.toList_ofList, hc, List.all_takeWhile, Bool.true_and,
    List.contains_eq_mem, decide_eq_false hreserved, Bool.not_false]

/-- The token of a cut is well formed. -/
theorem Cut.wellFormed {c : Char} {cs : List Char} {m : Munch} (h : Cut c cs m) (offset : Nat) :
    (Token.mk m.kind (textOf m.kind m.span) offset).WellFormed := by
  cases h with
  | identifier hc hkind =>
    have hname := isName_takeWhile hc hkind
    simpa [WellFormed, munchWord, hkind, textOf] using hname
  | number hc => simp [WellFormed, munchNumber, textOf, hc]
  | quoted hinner => simpa [WellFormed, textOf] using hinner
  | other hkind =>
    simp only [List.mem_cons, List.not_mem_nil, or_false, not_or] at hkind
    unfold WellFormed
    split
    · exact absurd ‹_› hkind.1
    · exact absurd ‹_› hkind.2.1
    · exact absurd ‹_› hkind.2.2
    · trivial

/-- All tokens of a text are well formed. -/
theorem wellFormed_of_mem_lexBody {offset : Nat} {cs : List Char} :
    ∀ t ∈ lexBody offset cs, t.WellFormed := by
  induction cs using lex_induction generalizing offset with
  | nil => simp
  | layout c cs hc ih => simpa [lexBody_layout hc] using ih
  | token c cs hc ih =>
    rw [lexBody_token hc]
    intro t ht
    rcases List.mem_cons.1 ht with rfl | ht
    · exact (cut_munch c cs).wellFormed offset
    · exact ih t ht

end Token

/-! ## Queries of well-formed tokens -/

/-- A numeral that starts with a digit spells no negative decimal. -/
theorem Decimal.negative_of_readExact? {text : String} {c : Char} {cs : List Char} {d : Decimal}
    (htext : text.toList = c :: cs) (hc : c.isDigit = true) (h : readExact? text = some d) :
    d.negative = false := by
  rw [readExact?, htext, readSigned_of_isDigit hc, readBody, Option.bind_eq_bind,
    Option.bind_eq_some_iff] at h
  obtain ⟨⟨magnitude, scale⟩, _, hparts⟩ := h
  simp only [ofParts?, Option.dite_none_right_eq_some] at hparts
  obtain ⟨_, hd⟩ := hparts
  cases hd
  rfl

theorem Token.WellFormed.isSpellable {t : Token} (ht : t.WellFormed) {v : Value}
    (h : t.value? = some v) : v.isSpellable = true := by
  unfold value? at h
  unfold WellFormed at ht
  split at h
  · rename_i hkind
    cases h
    simpa [hkind, Value.isSpellable] using ht
  · cases h
    rfl
  · rename_i hkind
    obtain ⟨d, hd, rfl⟩ := Option.map_eq_some_iff.1 h
    obtain ⟨c, cs, htext, hc⟩ : ∃ c cs, t.text.toList = c :: cs ∧ c.isDigit = true := by
      simpa [hkind] using ht
    simp [Value.isSpellable, Decimal.negative_of_readExact? htext hc hd]
  · cases h

theorem Condition.SpelledBy.isSpellable {c : Condition} {body : List Token} (h : c.SpelledBy body)
    (hbody : ∀ t ∈ body, t.WellFormed) : c.isSpellable = true := by
  cases h with
  | @quoted t ht =>
    have hform := hbody t List.mem_cons_self
    simpa [Token.WellFormed, ht, Condition.isSpellable] using hform
  | compares hsign ht => exact (hbody _ (by simp)).isSpellable ht
  | equals ht => exact (hbody _ (by simp)).isSpellable ht
  | within ht hdots hu =>
    rw [Condition.isSpellable, Bool.and_eq_true]
    exact ⟨(hbody _ (by simp)).isSpellable ht, (hbody _ (by simp)).isSpellable hu⟩

/-- A phrase of well-formed tokens spells a query that can be written. -/
theorem Phrase.isSpellable {l : Level} (p : Phrase l) (h : ∀ t ∈ p.tokens, t.WellFormed) :
    p.query.isSpellable = true := by
  induction p with
  | condition name colon body c hname hcolon hbody =>
    rw [query, Query.isSpellable, Bool.and_eq_true]
    refine ⟨?_, hbody.isSpellable fun t ht => h t ?_⟩
    · have hform := h name (by simp [tokens])
      simpa [Token.WellFormed, hname] using hform
    · simp [tokens, ht]
  | negation sign operand hsign ih => exact ih fun t ht => h t (by simp [tokens, ht])
  | group opening inner closing hopening hclosing ih =>
    exact ih fun t ht => h t (by simp [tokens, ht])
  | single c operand ih => exact ih h
  | joined c left sign right hsign ihl ihr =>
    rw [query, Query.isSpellable, Bool.and_eq_true]
    exact ⟨ihl fun t ht => h t (by simp [tokens, ht]), ihr fun t ht => h t (by simp [tokens, ht])⟩

/-- Whatever is parsed can be written. -/
theorem isSpellable_of_parse {maxDepth : Nat} {text : String} {q : Query}
    (h : Query.parse maxDepth text = .ok q) : q.isSpellable = true := by
  obtain ⟨p, rfl, htokens⟩ := exists_phrase_of_parse h
  refine p.isSpellable fun t ht => ?_
  rw [htokens] at ht
  exact wellFormed_of_mem_lexBody t ht

end FieldFilter
