import FieldFilter.Proofs.Token.LongestMatch
import Mathlib.Algebra.Ring.Parity

/-!
# Tokens depend on their own part of the text

A token is the longest match at its place, so that nothing behind it matters unless it goes on with
the token. Two ways of cutting a text follow. A text can be cut where one of its tokens starts. And
it can be cut at any layout that stands outside of quoted texts, which is where an even number of
quotes has gone before; behind an odd number of them the last quote is open and takes the rest.
-/

namespace FieldFilter.Token

/-! ## Cutting off what follows a token -/

/-- The longest match for some characters stays the longest if characters behind it are cut off. -/
theorem LongestMatch.of_append {kind : Kind} {span ahead more : List Char}
    (h : LongestMatch kind span (ahead ++ more)) (hspan : span <+: ahead) (hne : ahead ≠ []) :
    LongestMatch kind span ahead where
  isPrefix := hspan
  longest cls cs hcls hcs := h.longest cls cs hcls (hcs.trans (List.prefix_append _ _))
  classified := by
    rintro ⟨cls, cs, hcls, hcs⟩
    exact h.classified ⟨cls, cs, hcls, hcs.trans (List.prefix_append _ _)⟩
  kind_eq := h.kind_eq
  unknown hnone := by
    have hunclassified : ¬Classified (ahead ++ more) := by
      intro hclassified
      obtain ⟨cls, hcls⟩ := h.classified hclassified
      exact hnone ⟨cls, span, hcls, hspan⟩
    obtain ⟨c, cs, rfl⟩ := List.exists_cons_of_ne_nil hne
    obtain ⟨hkind, heq⟩ := h.unknown hunclassified
    refine ⟨hkind, ?_⟩
    by_cases hquote : c = '"'
    · subst hquote
      -- an open quote takes everything, so that nothing was cut off
      have hall : span = '"' :: cs ++ more := by simpa using heq
      refine hspan.eq_of_length_le ?_
      simp [hall]
    · simpa [hquote] using heq

/-- A text has one longest match. -/
theorem LongestMatch.unique {kind kind' : Kind} {span span' ahead : List Char}
    (h : LongestMatch kind span ahead) (h' : LongestMatch kind' span' ahead) :
    kind = kind' ∧ span = span' := by
  by_cases hclassified : Classified ahead
  · obtain ⟨cls, hcls⟩ := h.classified hclassified
    obtain ⟨cls', hcls'⟩ := h'.classified hclassified
    have hle := h.longest cls' span' hcls' h'.isPrefix
    have hle' := h'.longest cls span hcls h.isPrefix
    have hspan : span = span' :=
      (List.prefix_of_prefix_length_le h.isPrefix h'.isPrefix hle').eq_of_length_le hle
    subst hspan
    exact ⟨(h.kind_eq cls hcls).trans (h'.kind_eq cls hcls).symm, rfl⟩
  · obtain ⟨hkind, hspan⟩ := h.unknown hclassified
    obtain ⟨hkind', hspan'⟩ := h'.unknown hclassified
    exact ⟨hkind.trans hkind'.symm, hspan.trans hspan'.symm⟩

/-- A token is cut off alike if characters behind it are missing. -/
theorem munch_of_append {c : Char} {cs more rest : List Char}
    (h : (munch c (cs ++ more)).span ++ rest = c :: cs) :
    munch c cs = ⟨(munch c (cs ++ more)).kind, (munch c (cs ++ more)).span, rest⟩ := by
  have hwhole : LongestMatch (munch c (cs ++ more)).kind (munch c (cs ++ more)).span
      ((c :: cs) ++ more) := longestMatch_munch c (cs ++ more)
  have hcut := hwhole.of_append ⟨rest, h⟩ (List.cons_ne_nil _ _)
  obtain ⟨hkind, hspan⟩ := (longestMatch_munch c cs).unique hcut
  have hrest : (munch c cs).rest = rest := by
    have hsplit := munch_span_append_rest c cs
    rw [hspan, ← h] at hsplit
    exact List.append_cancel_left hsplit
  rw [← hkind, ← hspan, ← hrest]

/-- An opening quote and the next quote make up a quoted text. -/
theorem kind_munch_quote {cs : List Char} (h : '"' ∈ cs) : (munch '"' cs).kind = .quoted := by
  obtain ⟨inner, rest, rfl, hinner⟩ := List.eq_append_cons_of_mem h
  have hmunch : munch '"' (inner ++ '"' :: rest) = ⟨.quoted, '"' :: inner ++ ['"'], rest⟩ :=
    munchQuoted_of_not_mem hinner rest
  rw [hmunch]

/-- Nothing stands behind an open quote. -/
theorem quote_mem_of_rest_munch_ne_nil {cs : List Char} (h : (munch '"' cs).rest ≠ []) :
    '"' ∈ cs := by
  refine Decidable.byContradiction fun hquote => h ?_
  have hmunch : munch '"' cs = ⟨.unknown, '"' :: cs, []⟩ := munchQuoted_of_open hquote
  rw [hmunch]

/-! ## Cutting in front of a token -/

/-- A text can be cut where one of its tokens starts, and what stands in front is closed. -/
theorem exists_cut_of_mem_lexBody {offset : Nat} {cs : List Char} {t : Token}
    (ht : t ∈ lexBody offset cs) :
    ∃ before ahead, cs = before ++ ahead ∧ t.offset = offset + utf8Length before ∧
      lexBody offset cs = lexBody offset before ++ lexBody t.offset ahead ∧ Closed before := by
  induction cs using lex_induction generalizing offset with
  | nil => simp at ht
  | layout c cs hc ih =>
    rw [lexBody_layout hc] at ht ⊢
    obtain ⟨before, ahead, rfl, hoffset, hbody, hclosed⟩ := ih ht
    refine ⟨c :: before, ahead, rfl, ?_, ?_, hclosed.layout hc⟩
    · rw [hoffset, utf8Length_cons, Nat.add_assoc]
    · rw [lexBody_layout hc, hbody]
  | token c cs hc ih =>
    rw [lexBody_token hc] at ht ⊢
    rcases List.mem_cons.1 ht with rfl | ht
    · exact ⟨[], c :: cs, rfl, rfl, by simp [lexBody_token hc], closed_nil⟩
    · obtain ⟨before, ahead, hrest, hoffset, hbody, hclosed⟩ := ih ht
      have hne : (munch c cs).rest ≠ [] := by
        intro hnil
        rw [hnil, lexBody_nil] at ht
        cases ht
      obtain ⟨tail, hspan, hcs⟩ : ∃ tail, (munch c cs).span = c :: tail ∧
          cs = (tail ++ before) ++ ahead := by
        have hsplit := munch_span_append_rest c cs
        obtain ⟨d, tail, hspan⟩ := List.exists_cons_of_ne_nil (span_munch_ne_nil c cs)
        rw [hspan, hrest] at hsplit
        obtain ⟨rfl, htail⟩ := List.cons.inj hsplit
        exact ⟨tail, hspan, htail.symm.trans (List.append_assoc ..).symm⟩
      have hmunch : munch c (tail ++ before) =
          ⟨(munch c cs).kind, (munch c cs).span, before⟩ := by
        have hcut := @munch_of_append c (tail ++ before) ahead before
        rw [← hcs, hspan] at hcut
        rw [hspan]
        exact hcut rfl
      have hquote : c = '"' → '"' ∈ tail ++ before := by
        rintro rfl
        have hkind := congrArg Munch.kind hmunch
        rw [kind_munch_quote (quote_mem_of_rest_munch_ne_nil hne)] at hkind
        have hknown : (munchQuoted (tail ++ before)).kind = .quoted := hkind
        exact mem_of_kind_munchQuoted_ne (by simp [hknown])
      refine ⟨c :: (tail ++ before), ahead, by rw [hcs]; rfl, ?_, ?_, ?_⟩
      · rw [hoffset, hspan, ← List.cons_append, utf8Length_append, Nat.add_assoc]
      · rw [lexBody_token hc offset (tail ++ before), hmunch, hbody]
        rfl
      · exact Closed.token hc hquote (by rwa [hmunch])

/-! ## Quotes -/

/-- What is no letter and no digit does not occur among letters and digits. -/
theorem not_mem_of_isWordPart_eq_false {d : Char} (hd : isWordPart d = false) {cs : List Char}
    (h : ∀ c ∈ cs, IsLetter c ∨ IsNumeral c) : d ∉ cs := by
  intro hmem
  rw [isWordPart_iff.2 (h d hmem)] at hd
  cases hd

/-- Quotes come in pairs in the texts of classes. -/
theorem Class.Has.even_count {cls : Class} {cs : List Char} (h : cls.Has cs) :
    Even (cs.count '"') := by
  have hnone {cs : List Char} (hcs : '"' ∉ cs) : Even (cs.count '"') := by
    rw [List.count_eq_zero.2 hcs]
    exact Even.zero
  cases h with
  | colon | leftParen | rightParen | dots => exact hnone (by decide)
  | comparison op => cases op <;> exact hnone (by decide)
  | word hc hcs =>
    refine hnone (not_mem_of_isWordPart_eq_false rfl fun d hd => ?_)
    rcases List.mem_cons.1 hd with rfl | hd
    · exact .inl hc
    · exact hcs d hd
  | whole _ hds => exact hnone (not_mem_of_isWordPart_eq_false rfl fun d hd => .inr (hds d hd))
  | @fraction ds es _ hds _ hes =>
    have hwhole : '"' ∉ ds := not_mem_of_isWordPart_eq_false rfl fun d hd => .inr (hds d hd)
    have hrest : '"' ∉ es := not_mem_of_isWordPart_eq_false rfl fun d hd => .inr (hes d hd)
    exact hnone (by simp [hwhole, hrest])
  | @quoted inner hinner =>
    have hcount : ('"' :: inner ++ ['"']).count '"' = 2 := by
      simp [List.count_eq_zero.2 hinner]
    rw [hcount]
    exact even_two

/-- Quotes come in pairs in a token, unless it is an open quote. -/
theorem even_count_span_munch {c : Char} {cs : List Char} (hquote : c = '"' → '"' ∈ cs) :
    Even ((munch c cs).span.count '"') := by
  rcases exists_has_or_unknown c cs with ⟨cls, hcls⟩ | ⟨hkind, hspan⟩
  · exact hcls.even_count
  · have hc : c ≠ '"' := by
      rintro rfl
      rw [kind_munch_quote (hquote rfl)] at hkind
      cases hkind
    have hcount : (munch c cs).span.count '"' = 0 := by
      rw [hspan, if_neg hc, List.count_eq_zero]
      simpa using hc.symm
    rw [hcount]
    exact Even.zero

/-- The number of quotes in a text is even or odd as it is behind the first token, if this is not
an open quote. -/
theorem even_count_rest_munch {c : Char} {cs : List Char} (hquote : c = '"' → '"' ∈ cs) :
    Even ((munch c cs).rest.count '"') ↔ Even ((c :: cs).count '"') := by
  rw [← munch_span_append_rest c cs, List.count_append, Nat.even_add]
  simp [even_count_span_munch hquote]

theorem count_quote_layout {c : Char} (hc : isLayout c = true) (cs : List Char) :
    (c :: cs).count '"' = cs.count '"' := by
  refine List.count_cons_of_ne ?_
  rintro rfl
  cases hc

/-- A text with an even number of quotes leaves no quoted text open. -/
theorem closed_of_even_count {a : List Char} (h : Even (a.count '"')) : Closed a := by
  induction a using lex_induction with
  | nil => exact closed_nil
  | layout c cs hc ih =>
    rw [count_quote_layout hc] at h
    exact (ih h).layout hc
  | token c cs hc ih =>
    have hquote : c = '"' → '"' ∈ cs := by
      rintro rfl
      refine Decidable.byContradiction fun hopen => ?_
      rw [List.count_cons_self, List.count_eq_zero.2 hopen] at h
      exact absurd h (by decide)
    exact Closed.token hc hquote (ih ((even_count_rest_munch hquote).2 h))

/-- A text with an odd number of quotes ends in an unknown token that takes the last quote and all
that follows it. -/
theorem exists_lexBody_eq_of_odd_count {a : List Char} (h : Odd (a.count '"')) (offset : Nat) :
    ∃ body before inner, a = before ++ '"' :: inner ∧ '"' ∉ inner ∧ lexBody offset a =
      body ++ [⟨.unknown, String.ofList ('"' :: inner), offset + utf8Length before⟩] := by
  rw [← Nat.not_even_iff_odd] at h
  induction a using lex_induction generalizing offset with
  | nil => exact absurd Even.zero h
  | layout c cs hc ih =>
    rw [count_quote_layout hc] at h
    obtain ⟨body, before, inner, rfl, hinner, hbody⟩ := ih h (offset + c.utf8Size)
    refine ⟨body, c :: before, inner, rfl, hinner, ?_⟩
    rw [lexBody_layout hc, hbody, utf8Length_cons, Nat.add_assoc]
  | token c cs hc ih =>
    by_cases hquote : c = '"' → '"' ∈ cs
    · rw [← even_count_rest_munch hquote] at h
      obtain ⟨body, before, inner, hrest, hinner, hbody⟩ :=
        ih h (offset + utf8Length (munch c cs).span)
      let first : Token := ⟨(munch c cs).kind, textOf (munch c cs).kind (munch c cs).span, offset⟩
      refine ⟨first :: body, (munch c cs).span ++ before, inner, ?_, hinner, ?_⟩
      · rw [List.append_assoc, ← hrest, munch_span_append_rest]
      · rw [lexBody_token hc, hbody, utf8Length_append, Nat.add_assoc, List.cons_append]
    · obtain ⟨rfl, hopen⟩ := Classical.not_imp.1 hquote
      have hmunch : munch '"' cs = ⟨.unknown, '"' :: cs, []⟩ := munchQuoted_of_open hopen
      refine ⟨[], [], cs, rfl, hopen, ?_⟩
      rw [lexBody_token hc, hmunch, lexBody_nil]
      rfl

/-! ## Layout between two texts -/

theorem isLayout_iff {c : Char} : isLayout c = true ↔ c ∈ [' ', '\t', '\r', '\n'] := by
  simp [isLayout, or_assoc]

/-- A run of layout moves the offset and leaves no token. -/
theorem lex_append_layout {w : List Char} (hw : ∀ c ∈ w, isLayout c = true) (offset : Nat)
    (b : List Char) : lex offset (w ++ b) = lex (offset + utf8Length w) b := by
  induction w generalizing offset with
  | nil => rfl
  | cons c w ih =>
    rw [List.cons_append, lex_layout (hw c List.mem_cons_self),
      ih (fun d hd => hw d (List.mem_cons_of_mem _ hd)), utf8Length_cons, Nat.add_assoc]

/-- No token goes on with layout. -/
theorem seam_layout {c : Char} (hc : isLayout c = true) (b : List Char) : Seam (c :: b) := by
  refine seam_cons ?_ b
  rw [isLayout_iff] at hc
  simp only [List.mem_cons, List.not_mem_nil, or_false] at hc
  rcases hc with rfl | rfl | rfl | rfl <;> rfl

/-- Bytes in front of a text move its tokens, the end of input with them. -/
theorem lex_add (offset bytes : Nat) (cs : List Char) :
    lex (offset + bytes) cs = (lex offset cs).map (shift bytes) := by
  rw [lex_eq_lexBody_append, lex_eq_lexBody_append, lexBody_add, List.map_append,
    Nat.add_right_comm]
  rfl

/-- Layout behind a closed text divides the tokens of a text. -/
theorem Closed.lex_append_layout {a w : List Char} (ha : Closed a) (hne : w ≠ [])
    (hw : ∀ c ∈ w, isLayout c = true) (offset : Nat) (b : List Char) :
    lex offset (a ++ (w ++ b)) =
      lexBody offset a ++ lex (offset + utf8Length a + utf8Length w) b := by
  obtain ⟨c, w, rfl⟩ := List.exists_cons_of_ne_nil hne
  have hseam : Seam (c :: w ++ b) := seam_layout (hw c List.mem_cons_self) (w ++ b)
  rw [ha offset _ hseam, Token.lex_append_layout hw]

end FieldFilter.Token

namespace FieldFilter

open Token

/-- Two texts with layout between them have the tokens of both, those of the second moved, if the
first one has an even number of quotes. A text with an odd number of quotes ends in an unknown
token, which starts at its last quote. -/
theorem tokenize_append_layout (a w b : String) :
    (Even (a.toList.count '"') → w ≠ "" → (∀ c ∈ w.toList, c ∈ [' ', '\t', '\r', '\n']) →
      tokenize (a ++ w ++ b) = (tokenize a).dropLast ++
        (tokenize b).map (shift (a.utf8ByteSize + w.utf8ByteSize))) ∧
    (Odd (a.toList.count '"') → ∃ body before inner,
      a.toList = before ++ '"' :: inner ∧ '"' ∉ inner ∧ (tokenize a).dropLast =
        body ++ [⟨.unknown, String.ofList ('"' :: inner), utf8Length before⟩]) := by
  constructor
  · intro heven hne hw
    have hne' : w.toList ≠ [] := by simpa using hne
    have hlayout : ∀ c ∈ w.toList, isLayout c = true := fun c hc => isLayout_iff.2 (hw c hc)
    have hsplit := (closed_of_even_count heven).lex_append_layout hne' hlayout 0 b.toList
    have hlen : 0 + utf8Length a.toList + utf8Length w.toList =
        0 + (a.utf8ByteSize + w.utf8ByteSize) := by
      rw [utf8Length_toList, utf8Length_toList, Nat.add_assoc]
    rw [hlen, lex_add] at hsplit
    rw [tokenize_eq_lex, String.toList_append, String.toList_append, List.append_assoc, hsplit]
    rfl
  · intro hodd
    obtain ⟨body, before, inner, ha, hinner, hbody⟩ := exists_lexBody_eq_of_odd_count hodd 0
    rw [Nat.zero_add] at hbody
    exact ⟨body, before, inner, ha, hinner, hbody⟩

/-- Behind the quoted text `"x y"` the tokens go on as in a text of their own; without its second
quote it is unknown to the end. -/
theorem tokenize_append_layout_quoted :
    (Even ("t:\"x y\"".toList.count '"') ∧ " \n" ≠ "" ∧
      (∀ c ∈ " \n".toList, c ∈ [' ', '\t', '\r', '\n']) ∧
      tokenize ("t:\"x y\"" ++ " \n" ++ "AND") = (tokenize "t:\"x y\"").dropLast ++
        (tokenize "AND").map (shift ("t:\"x y\"".utf8ByteSize + " \n".utf8ByteSize))) ∧
    Odd ("t:\"x y".toList.count '"') ∧ ∃ body before inner,
      "t:\"x y".toList = before ++ '"' :: inner ∧ '"' ∉ inner ∧ (tokenize "t:\"x y").dropLast =
        body ++ [⟨.unknown, String.ofList ('"' :: inner), utf8Length before⟩] := by
  have heven : Even ("t:\"x y\"".toList.count '"') := by decide
  have hne : " \n" ≠ "" := by decide
  have hw : ∀ c ∈ " \n".toList, c ∈ [' ', '\t', '\r', '\n'] := by simp
  have hodd : Odd ("t:\"x y".toList.count '"') := by decide
  exact ⟨⟨heven, hne, hw, (tokenize_append_layout _ _ _).1 heven hne hw⟩, hodd,
    (tokenize_append_layout _ "" "").2 hodd⟩

end FieldFilter
