import FieldFilter.Compilation
import FieldFilter.Proofs.Query.Layout

/-!
# Where errors show in a text

Every error of the parser is about one of the tokens that it was given. Tokens know where they stand
in their text, and so an error points at a place of the text where what the error says can be read.
-/

namespace FieldFilter

namespace Query

open FieldFilter.Query.Parser SyntaxError

/-- An error of a text is about one of its tokens. -/
theorem exists_blames_of_parse {maxDepth : Nat} {text : String} {e : SyntaxError}
    (h : parse maxDepth text = .error e) :
    ∃ t ∈ tokenize text, Blames (min maxDepth maxDepthLimit) t e := by
  obtain ⟨t, ht, hblames⟩ := blamed_of_ofTokens h
  rw [ahead_start_tokenize] at ht
  exact ⟨t, ht, hblames⟩

end Query

/-! ## Tokens in their text -/

namespace Token

/-- A text of a class whose kind takes the query deeper is a parenthesis or one of three words. -/
theorem Class.Has.mem_of_deepens {cls : Class} {cs : List Char} (h : cls.Has cs)
    (hkind : (cls.kind cs).deepens = true) : String.ofList cs ∈ ["(", "NOT", "AND", "OR"] := by
  cases h with
  | leftParen => decide
  | word hc hcs =>
    rw [← wordKind_eq] at hkind
    unfold wordKind at hkind
    split at hkind
    iterate 3
      rename_i hword
      rw [hword]
      decide
    all_goals cases hkind
  | colon | rightParen | dots | comparison | whole | fraction | quoted => cases hkind

variable {text : String} {t : Token}

theorem cover_tokenize (text : String) : Cover text (tokenize text) :=
  (tiling_lex 0 text.toList).cover

/-- The end of input of a text is at its end, and all other tokens are in front of it. -/
theorem eq_endAt_or_offset_lt (ht : t ∈ tokenize text) :
    t = endAt text.utf8ByteSize ∨ t.kind ≠ .endOfInput ∧ t.offset < text.utf8ByteSize := by
  rw [tokenize_eq_lex, lex_eq_lexBody_append, utf8Length_toList, Nat.zero_add, List.mem_append,
    List.mem_singleton] at ht
  rcases ht with ht | rfl
  · refine .inr ⟨kind_ne_endOfInput_of_mem_lexBody t ht, ?_⟩
    simpa [utf8Length_toList] using offset_lt_of_mem_lexBody ht
  · exact .inl rfl

/-- A text has one token at a place. -/
theorem eq_of_offset_eq {u : Token} (ht : t ∈ tokenize text) (hu : u ∈ tokenize text)
    (h : u.offset = t.offset) : u = t := by
  have hascending := List.pairwise_iff_getElem.1 (cover_tokenize text).ascending
  obtain ⟨i, hi, rfl⟩ := List.mem_iff_getElem.1 ht
  obtain ⟨j, hj, rfl⟩ := List.mem_iff_getElem.1 hu
  rcases Nat.lt_trichotomy i j with hij | rfl | hji
  · exact absurd h.symm (Nat.ne_of_lt (hascending i j hi hj hij))
  · rfl
  · exact absurd h (Nat.ne_of_lt (hascending j i hj hi hji))

/-- The text of a token stands at its offset, unless there is a quote in front of it. -/
theorem text_ne_empty_and_isSlice (ht : t ∈ tokenize text) (hend : t.kind ≠ .endOfInput)
    (hquoted : t.kind ≠ .quoted) :
    t.text ≠ "" ∧ IsSlice text t.offset (t.offset + t.text.utf8ByteSize) t.text := by
  have hspan : t.span = t.text.toList := by simp [span]
  have hplace : t.textOffset = t.offset := by simp [textOffset]
  constructor
  · intro hempty
    refine (cover_tokenize text).nonempty t ht hend ?_
    rw [hspan, hempty]
    rfl
  · rw [← hplace]
    exact (cover_tokenize text).text_isSlice t ht

/-- A token that takes the query deeper is a parenthesis or one of three words. -/
theorem text_mem_of_deepens (ht : t ∈ tokenize text) (hkind : t.kind.deepens = true) :
    t.text ∈ ["(", "NOT", "AND", "OR"] := by
  have hend : t.kind ≠ .endOfInput := Kind.ne_of_deepens hkind rfl
  have hquoted : t.kind ≠ .quoted := Kind.ne_of_deepens hkind rfl
  obtain ⟨_, ahead, _, _, hmatch⟩ :=
    longestMatch_of_mem_lexBody t (mem_lexBody_of_mem_tokenize ht hend)
  have hclassified : Classified ahead := by
    refine Classical.byContradiction fun hnone => ?_
    rw [(hmatch.unknown hnone).1] at hkind
    cases hkind
  obtain ⟨cls, hcls⟩ := hmatch.classified hclassified
  rw [hmatch.kind_eq cls hcls] at hkind
  have hmem := hcls.mem_of_deepens hkind
  have hspan : t.span = t.text.toList := by simp [span]
  rwa [hspan, String.ofList_toList] at hmem

end Token

/-! ## Errors in their text -/

/-- What an error says can be found in the text at the place where the error shows. -/
structure SyntaxError.FitsText (maxDepth : Nat) (text : String) (e : SyntaxError) : Prop where
  offset_le : e.offset ≤ text.utf8ByteSize
  /-- The place is a boundary of characters. -/
  isValid : String.Pos.Raw.IsValid text ⟨e.offset⟩
  /-- Text that is not understood, as a token or as a number, stands at its place. -/
  lexeme : ∀ lexeme offset, e = .unknownToken lexeme offset ∨ e = .invalidNumber lexeme offset →
    lexeme ≠ "" ∧ IsSlice text offset (offset + lexeme.utf8ByteSize) lexeme
  /-- What is found is the one token of the place, and it is the end of input at the end only. -/
  found : ∀ expected found offset, e = .unexpectedToken expected found offset →
    (found = "end of input" ↔ offset = text.utf8ByteSize) ∧
    ∃ t ∈ tokenize text, t.offset = offset ∧ found = t.description ∧
      ∀ u ∈ tokenize text, u.offset = offset → u = t
  /-- What is too deep is opened or joined at the place. -/
  deep : ∀ limit offset, e = .nestingTooDeep limit offset → limit = min maxDepth 256 ∧
    ∃ word ∈ ["(", "NOT", "AND", "OR"], IsSlice text offset (offset + word.utf8ByteSize) word

namespace Query

open Token SyntaxError

/-- An error about a token of a text fits the text. -/
theorem fitsText_of_blames {maxDepth : Nat} {text : String} {t : Token} {e : SyntaxError}
    (ht : t ∈ tokenize text) (h : Blames (min maxDepth maxDepthLimit) t e) :
    e.FitsText maxDepth text := by
  have hplace := eq_endAt_or_offset_lt ht
  have hvalid := ((cover_tokenize text).span_isSlice t ht).isValid_start
  have hle : t.offset ≤ text.utf8ByteSize := by
    rcases hplace with rfl | ⟨_, hlt⟩
    · exact Nat.le_refl _
    · exact hlt.le
  -- a token whose text is the lexeme of an error is neither quoted nor the end of input
  have hslice {kind : Kind} (hkind : t.kind = kind) (hend : kind ≠ .endOfInput)
      (hquoted : kind ≠ .quoted) := text_ne_empty_and_isSlice ht (hkind ▸ hend) (hkind ▸ hquoted)
  cases h with
  | misfit expected =>
    by_cases hunknown : t.kind = .unknown
    · rw [Token.misfit, if_pos hunknown]
      refine ⟨hle, hvalid, ?_, nofun, nofun⟩
      rintro lexeme offset (he | he)
      · cases he
        exact hslice hunknown (by simp) (by simp)
      · cases he
    · rw [Token.misfit, if_neg hunknown]
      refine ⟨hle, hvalid, nofun, ?_, nofun⟩
      rintro _ found offset ⟨⟩
      refine ⟨?_, t, ht, rfl, rfl, fun u hu h => eq_of_offset_eq ht hu h⟩
      rcases hplace with rfl | ⟨hend, hlt⟩
      · exact iff_of_true rfl rfl
      · exact iff_of_false (description_ne_endOfInput hend) hlt.ne
  | invalidNumber hnumber =>
    refine ⟨hle, hvalid, ?_, nofun, nofun⟩
    rintro lexeme offset (he | he)
    · cases he
    · cases he
      exact hslice hnumber (by simp) (by simp)
  | nestingTooDeep hdeepens =>
    refine ⟨hle, hvalid, nofun, nofun, ?_⟩
    rintro limit offset ⟨⟩
    refine ⟨rfl, t.text, text_mem_of_deepens ht hdeepens, ?_⟩
    have hend : t.kind ≠ .endOfInput := Kind.ne_of_deepens hdeepens rfl
    have hquoted : t.kind ≠ .quoted := Kind.ne_of_deepens hdeepens rfl
    exact (text_ne_empty_and_isSlice ht hend hquoted).2

/-- An error of a text shows at a place of the text where what it says can be found. The compile
error that is made of it shows at the same place, and it is what compiling the text gives. -/
theorem fitsText_of_parse {maxDepth : Nat} {text : String} {e : SyntaxError}
    (h : parse maxDepth text = .error e) :
    e.FitsText maxDepth text ∧ (CompileError.ofSyntaxError e).offset? = some e.offset ∧
    ∀ limits schema, limits.maxDepth = maxDepth → isBlank text = false →
      text.utf8ByteSize ≤ limits.maxQueryLength →
        compile limits schema text = .error (.ofSyntaxError e) := by
  obtain ⟨t, ht, hblames⟩ := exists_blames_of_parse h
  refine ⟨fitsText_of_blames ht hblames, ?_, ?_⟩
  · cases e <;> rfl
  · rintro limits schema rfl hblank hlength
    unfold compile
    rw [if_neg (by simp [hblank]), if_neg (Nat.not_lt.2 hlength), h]

/-- Behind the two bytes of the letter in `t:"é" & x` an unknown token stands at byte seven. -/
theorem fitsText_of_parse_ampersand :
    parse 5 "t:\"é\" & x" = .error (.unknownToken "&" 7) ∧
    (SyntaxError.unknownToken "&" 7).FitsText 5 "t:\"é\" & x" ∧
    isBlank "t:\"é\" & x" = false ∧ "t:\"é\" & x".utf8ByteSize ≤ 20 ∧
    compile ⟨20, 5⟩ .empty "t:\"é\" & x" = .error (.unknownToken "&" 7) ∧
    (CompileError.unknownToken "&" 7).offset? = some 7 := by
  have h : parse 5 "t:\"é\" & x" = .error (.unknownToken "&" 7) := by decide +kernel
  have hblank : isBlank "t:\"é\" & x" = false := by decide +kernel
  have hlength : "t:\"é\" & x".utf8ByteSize ≤ 20 := by decide +kernel
  obtain ⟨hfits, hoffset, hcompile⟩ := fitsText_of_parse h
  exact ⟨h, hfits, hblank, hlength, hcompile ⟨20, 5⟩ _ rfl hblank hlength, hoffset⟩

end Query

end FieldFilter
