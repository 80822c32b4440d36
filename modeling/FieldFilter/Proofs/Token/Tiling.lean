import FieldFilter.Proofs.Token.Cuts

/-!
# The lexer loses nothing

The tokens of a text, laid out at their offsets, cover it: their spans stand in the text one behind
the other, and what is left between them is layout. A `Tiling` builds the text up from gaps and
spans in this way; the tokens of every text tile it, and whatever is to be known of offsets and
bytes is read off the tiling. A lexer hands out these tokens one by one and nothing after them.
-/

namespace FieldFilter

/-! ## Places in a text -/

/-- The bytes of a text between two byte offsets are those of another text, and both offsets are
boundaries of characters. -/
structure IsSlice (text : String) (start stop : Nat) (part : String) : Prop where
  isValid_start : String.Pos.Raw.IsValid text ⟨start⟩
  isValid_stop : String.Pos.Raw.IsValid text ⟨stop⟩
  bytes : text.toByteArray.extract start stop = part.toByteArray

/-- A part of a concatenation is a slice of it. -/
theorem isSlice_append (before part after : String) :
    IsSlice (before ++ (part ++ after)) before.utf8ByteSize
      (before.utf8ByteSize + part.utf8ByteSize) part := by
  refine ⟨?_, ?_, ?_⟩
  · rw [String.Pos.Raw.isValid_iff_exists_append]
    exact ⟨before, part ++ after, rfl, rfl⟩
  · rw [String.Pos.Raw.isValid_iff_exists_append]
    refine ⟨before ++ part, after, (String.append_assoc).symm, ?_⟩
    rw [String.Pos.Raw.ext_iff, String.byteIdx_rawEndPos, String.utf8ByteSize_append]
  · have hskip := @ByteArray.extract_append_size_add before.toByteArray
      (part.toByteArray ++ after.toByteArray) 0 part.toByteArray.size
    rw [ByteArray.extract_append_eq_left rfl] at hskip
    rw [String.toByteArray_append, String.toByteArray_append]
    exact hskip

/-- A run of characters in a text is a slice, and so is every run of characters in it. -/
theorem isSlice_of_toList_eq {text : String} {before cs after : List Char}
    (h : text.toList = before ++ (cs ++ after)) :
    IsSlice text (utf8Length before) (utf8Length before + utf8Length cs) (String.ofList cs) := by
  have htext : text = String.ofList before ++ (String.ofList cs ++ String.ofList after) := by
    rw [← String.ofList_append, ← String.ofList_append, ← h, String.ofList_toList]
  have hslice := isSlice_append (String.ofList before) (String.ofList cs) (String.ofList after)
  rw [utf8ByteSize_ofList, utf8ByteSize_ofList, ← htext] at hslice
  exact hslice

namespace Token

/-- The byte offset just after the characters that the token covers. -/
def stop (t : Token) : Nat := t.offset + utf8Length t.span

/-- The byte offset of the token's text, which for quoted text is that behind the opening quote. -/
def textOffset (t : Token) : Nat :=
  match t.kind with
  | .quoted => t.offset + 1
  | _ => t.offset

/-- The text of a token stands inside its span. -/
theorem exists_span_eq (t : Token) :
    ∃ opening closing, t.span = opening ++ (t.text.toList ++ closing) ∧
      t.textOffset = t.offset + utf8Length opening := by
  by_cases h : t.kind = .quoted
  · have hquote : utf8Length ['"'] = 1 := rfl
    refine ⟨['"'], ['"'], ?_, ?_⟩
    · simp [span, h]
    · simp [textOffset, h, hquote]
  · refine ⟨[], [], ?_, ?_⟩
    · simp [span]
    · simp [textOffset]

/-- The token of a cut covers the characters that were cut off. -/
theorem Cut.span_eq {c : Char} {cs : List Char} {m : Munch} (h : Cut c cs m) (offset : Nat) :
    (Token.mk m.kind (textOf m.kind m.span) offset).span = m.span := by
  have hplain (hkind : m.kind ≠ .quoted) :
      (Token.mk m.kind (textOf m.kind m.span) offset).span = m.span := by
    simp [span, textOf]
  cases h with
  | identifier hc hkind => exact hplain (by simp [munchWord, hkind])
  | number hc => exact hplain (by simp [munchNumber])
  | quoted hinner => simp [span, textOf]
  | other hkind => exact hplain fun hquoted => hkind (by simp [hquoted])

/-! ## Gaps and spans -/

/-- Tokens tile a run of characters that starts at some offset: each stands behind a gap of layout,
and an end of input stands behind the last gap. -/
inductive Tiling : Nat → List Char → List Token → Prop
  | last {offset : Nat} {gap : List Char} (hgap : ∀ c ∈ gap, isLayout c = true) :
      Tiling offset gap [endAt (offset + utf8Length gap)]
  | cons {offset : Nat} {gap rest : List Char} {t : Token} {ts : List Token}
      (hgap : ∀ c ∈ gap, isLayout c = true) (hkind : t.kind ≠ .endOfInput) (hspan : t.span ≠ [])
      (hoffset : t.offset = offset + utf8Length gap) (more : Tiling t.stop rest ts) :
      Tiling offset (gap ++ (t.span ++ rest)) (t :: ts)

/-- Layout in front of a text widens its first gap. -/
theorem Tiling.layout {offset : Nat} {c : Char} {cs : List Char} {ts : List Token}
    (hc : isLayout c = true) (h : Tiling (offset + c.utf8Size) cs ts) :
    Tiling offset (c :: cs) ts := by
  have hall {gap : List Char} (hgap : ∀ d ∈ gap, isLayout d = true) :
      ∀ d ∈ c :: gap, isLayout d = true := by
    intro d hd
    rcases List.mem_cons.1 hd with rfl | hd
    · exact hc
    · exact hgap d hd
  cases h with
  | last hgap =>
    rw [Nat.add_assoc, ← utf8Length_cons]
    exact .last (hall hgap)
  | cons hgap hkind hspan hoffset more =>
    rw [Nat.add_assoc, ← utf8Length_cons] at hoffset
    exact .cons (hall hgap) hkind hspan hoffset more

/-- The tokens of a text tile it. -/
theorem tiling_lex (offset : Nat) (cs : List Char) : Tiling offset cs (lex offset cs) := by
  induction cs using lex_induction generalizing offset with
  | nil =>
    have hempty : ∀ c ∈ ([] : List Char), isLayout c = true := by simp
    rw [lex_nil]
    exact .last hempty
  | layout c cs hc ih =>
    rw [lex_layout hc]
    exact (ih _).layout hc
  | token c cs hc ih =>
    let t : Token := ⟨(munch c cs).kind, textOf (munch c cs).kind (munch c cs).span, offset⟩
    have hspan : t.span = (munch c cs).span := (cut_munch c cs).span_eq offset
    have hne : t.span ≠ [] := by
      rw [hspan]
      exact span_munch_ne_nil c cs
    have hstop : t.stop = offset + utf8Length (munch c cs).span := by rw [stop, hspan]
    have more : Tiling t.stop (munch c cs).rest (lex t.stop (munch c cs).rest) := ih _
    have whole : Tiling offset ([] ++ (t.span ++ (munch c cs).rest)) _ :=
      .cons (by simp) (kind_munch_ne_endOfInput c cs) hne rfl more
    rw [List.nil_append, hspan, munch_span_append_rest, hstop] at whole
    rw [lex_token hc]
    exact whole

/-! ## What a tiling says -/

namespace Tiling

variable {offset : Nat} {cs : List Char} {ts : List Token}

/-- The end of input stands last, at the end of the text, and nowhere else. -/
theorem exists_eq_append (h : Tiling offset cs ts) :
    ∃ body, ts = body ++ [endAt (offset + utf8Length cs)] ∧ ∀ t ∈ body, t.kind ≠ .endOfInput := by
  induction h with
  | last => exact ⟨[], rfl, by simp⟩
  | @cons offset gap rest t ts hgap hkind hspan hoffset more ih =>
    obtain ⟨body, rfl, hbody⟩ := ih
    refine ⟨t :: body, ?_, ?_⟩
    · have hlen : t.stop + utf8Length rest = offset + utf8Length (gap ++ (t.span ++ rest)) := by
        rw [stop, hoffset, utf8Length_append, utf8Length_append]
        omega
      rw [hlen, List.cons_append]
    · intro u hu
      rcases List.mem_cons.1 hu with rfl | hu
      · exact hkind
      · exact hbody u hu

/-- There are no more tokens than characters, the end of input apart. -/
theorem length_le (h : Tiling offset cs ts) : ts.length ≤ cs.length + 1 := by
  induction h with
  | last => simp
  | @cons offset gap rest t ts hgap hkind hspan hoffset more ih =>
    have hpos := List.length_pos_iff.2 hspan
    simp only [List.length_cons, List.length_append]
    omega

/-- No token is in front of the first one. -/
theorem le_offset (h : Tiling offset cs ts) : ∀ t ∈ ts, offset ≤ t.offset := by
  induction h with
  | last hgap =>
    intro t ht
    obtain rfl := List.mem_singleton.1 ht
    exact Nat.le_add_right _ _
  | @cons offset gap rest t ts hgap hkind hspan hoffset more ih =>
    intro u hu
    have hstart : offset ≤ t.offset := by omega
    rcases List.mem_cons.1 hu with rfl | hu
    · exact hstart
    · exact hstart.trans ((Nat.le_add_right _ _).trans (ih u hu))

/-- A token ends before any later one starts. -/
theorem pairwise_stop_le (h : Tiling offset cs ts) :
    ts.Pairwise fun t u => t.stop ≤ u.offset := by
  induction h with
  | last => exact List.pairwise_singleton _ _
  | cons hgap hkind hspan hoffset more ih => exact List.pairwise_cons.2 ⟨more.le_offset, ih⟩

/-- Every token but the end of input covers a character. -/
theorem span_ne_nil (h : Tiling offset cs ts) :
    ∀ t ∈ ts, t.kind ≠ .endOfInput → t.span ≠ [] := by
  induction h with
  | last =>
    intro t ht hkind
    obtain rfl := List.mem_singleton.1 ht
    exact absurd rfl hkind
  | cons hgap hkind hspan hoffset more ih =>
    intro u hu
    rcases List.mem_cons.1 hu with rfl | hu
    · exact fun _ => hspan
    · exact ih u hu

/-- Each token is behind those in front of it. -/
theorem pairwise_offset_lt (h : Tiling offset cs ts) :
    ts.Pairwise fun t u => t.offset < u.offset := by
  induction h with
  | last => exact List.pairwise_singleton _ _
  | @cons offset gap rest t ts hgap hkind hspan hoffset more ih =>
    refine List.pairwise_cons.2 ⟨fun u hu => ?_, ih⟩
    have hlt : t.offset < t.stop := Nat.lt_add_of_pos_right (utf8Length_pos hspan)
    exact hlt.trans_le (more.le_offset u hu)

/-- Every span stands in the text at its offset. -/
theorem exists_eq_append_span (h : Tiling offset cs ts) :
    ∀ t ∈ ts, ∃ before after, cs = before ++ (t.span ++ after) ∧
      t.offset = offset + utf8Length before := by
  induction h with
  | @last offset gap hgap =>
    intro t ht
    obtain rfl := List.mem_singleton.1 ht
    exact ⟨gap, [], by simp [span, endAt], rfl⟩
  | @cons offset gap rest t ts hgap hkind hspan hoffset more ih =>
    intro u hu
    rcases List.mem_cons.1 hu with rfl | hu
    · exact ⟨gap, rest, rfl, hoffset⟩
    · obtain ⟨before, after, rfl, hu⟩ := ih u hu
      refine ⟨gap ++ (t.span ++ before), after, by simp, ?_⟩
      rw [hu, stop, hoffset, utf8Length_append, utf8Length_append]
      omega

/-- Gaps of layout and spans, in turn, make up the text. -/
theorem exists_gaps (h : Tiling offset cs ts) :
    ∃ gaps : List (List Char), gaps.length = ts.length ∧
      (∀ gap ∈ gaps, ∀ c ∈ gap, isLayout c = true) ∧
      cs = (List.zipWith (fun gap t => gap ++ t.span) gaps ts).flatten := by
  induction h with
  | @last offset gap hgap => exact ⟨[gap], rfl, by simpa using hgap, by simp [span, endAt]⟩
  | @cons offset gap rest t ts hgap hkind hspan hoffset more ih =>
    obtain ⟨gaps, hlength, hgaps, rfl⟩ := ih
    refine ⟨gap :: gaps, by simp [hlength], ?_, by simp⟩
    intro g hg
    rcases List.mem_cons.1 hg with rfl | hg
    · exact hgap
    · exact hgaps g hg

end Tiling

/-! ## Bytes between spans -/

/-- The bytes of layout: space, tab, carriage return and line feed. -/
def layoutBytes : List UInt8 := [0x20, 0x09, 0x0D, 0x0A]

/-- The bytes of a run of characters. -/
def bytes (cs : List Char) : List UInt8 := cs.flatMap String.utf8EncodeChar

@[simp] theorem bytes_append (a b : List Char) : bytes (a ++ b) = bytes a ++ bytes b :=
  List.flatMap_append

@[simp] theorem length_bytes (cs : List Char) : (bytes cs).length = utf8Length cs := by
  induction cs with
  | nil => rfl
  | cons c cs ih =>
    have hcons : bytes (c :: cs) = String.utf8EncodeChar c ++ bytes cs := List.flatMap_cons
    rw [hcons, List.length_append, String.length_utf8EncodeChar, ih, utf8Length_cons]

theorem toByteArray_bytes (text : String) : (bytes text.toList).toByteArray = text.toByteArray := by
  rw [bytes, ← List.utf8Encode, String.utf8Encode_toList]

/-- A gap of layout has only bytes of layout. -/
theorem mem_layoutBytes {gap : List Char} (hgap : ∀ c ∈ gap, isLayout c = true) {b : UInt8}
    (hb : b ∈ bytes gap) : b ∈ layoutBytes := by
  obtain ⟨c, hc, hb⟩ := List.mem_flatMap.1 hb
  have hlayout := hgap c hc
  simp only [isLayout, Bool.or_eq_true, beq_iff_eq] at hlayout
  rcases hlayout with ((rfl | rfl) | rfl) | rfl
  · obtain rfl : b = 0x20 := List.mem_singleton.1 hb
    decide
  · obtain rfl : b = 0x09 := List.mem_singleton.1 hb
    decide
  · obtain rfl : b = 0x0D := List.mem_singleton.1 hb
    decide
  · obtain rfl : b = 0x0A := List.mem_singleton.1 hb
    decide

/-- A byte that no span covers is one of layout. -/
theorem Tiling.mem_layoutBytes_of_uncovered {offset : Nat} {cs : List Char} {ts : List Token}
    (h : Tiling offset cs ts) {i : Nat} {b : UInt8} (hb : (bytes cs)[i]? = some b)
    (huncovered : ∀ t ∈ ts, ¬(t.offset ≤ offset + i ∧ offset + i < t.stop)) :
    b ∈ layoutBytes := by
  induction h generalizing i with
  | last hgap => exact mem_layoutBytes hgap (List.mem_of_getElem? hb)
  | @cons offset gap rest t ts hgap hkind hspan hoffset more ih =>
    rw [bytes_append, bytes_append] at hb
    by_cases hfirst : i < utf8Length gap
    · rw [List.getElem?_append_left (by simpa using hfirst)] at hb
      exact mem_layoutBytes hgap (List.mem_of_getElem? hb)
    · have hskip : (bytes gap).length ≤ i := by simpa using hfirst
      rw [List.getElem?_append_right hskip, length_bytes] at hb
      -- The span itself is ruled out, so that the byte stands behind it.
      have hstop : t.stop = offset + utf8Length gap + utf8Length t.span := by rw [stop, hoffset]
      have hbehind : utf8Length t.span ≤ i - utf8Length gap := by
        have := huncovered t List.mem_cons_self
        omega
      rw [List.getElem?_append_right (by simpa using hbehind), length_bytes] at hb
      refine ih hb fun u hu => ?_
      have hplace : t.stop + (i - utf8Length gap - utf8Length t.span) = offset + i := by
        rw [length_bytes] at hskip
        omega
      rw [hplace]
      exact huncovered u (List.mem_cons_of_mem _ hu)

/-! ## The tokens of a text -/

/-- The tokens make up the text: nothing but layout stands outside them, and each of them stands in
the text where its offset says. -/
structure Cover (text : String) (ts : List Token) : Prop where
  /-- The end of input stands last, at the end of the text, and nowhere else. -/
  ends : ∃ body, ts = body ++ [endAt text.utf8ByteSize] ∧ ∀ t ∈ body, t.kind ≠ .endOfInput
  /-- There are no more tokens than characters, the end of input apart. -/
  length_le : ts.length ≤ text.length + 1
  ascending : ts.Pairwise fun t u => t.offset < u.offset
  /-- Spans are disjoint and in order. -/
  disjoint : ts.Pairwise fun t u => t.stop ≤ u.offset
  nonempty : ∀ t ∈ ts, t.kind ≠ .endOfInput → t.span ≠ []
  /-- The bytes of the text at the place of a span are those of the span, which is cut from the text
  between characters. -/
  span_isSlice : ∀ t ∈ ts, IsSlice text t.offset t.stop (String.ofList t.span)
  /-- The same of the text of a token, which leaves out the quotes. -/
  text_isSlice : ∀ t ∈ ts, IsSlice text t.textOffset (t.textOffset + t.text.utf8ByteSize) t.text
  /-- Every byte outside all spans is a space, a tab, a carriage return or a line feed. -/
  layout : ∀ (i : Nat) (hi : i < text.toByteArray.size),
    (∀ t ∈ ts, ¬(t.offset ≤ i ∧ i < t.stop)) → text.toByteArray[i] ∈ layoutBytes
  /-- Gaps of layout and spans, in turn, give back the text. -/
  woven : ∃ gaps : List (List Char), gaps.length = ts.length ∧
    (∀ gap ∈ gaps, ∀ c ∈ gap, isLayout c = true) ∧
    text.toList = (List.zipWith (fun gap t => gap ++ t.span) gaps ts).flatten

/-- Tokens that tile a text make it up. -/
theorem Tiling.cover {text : String} {ts : List Token} (h : Tiling 0 text.toList ts) :
    Cover text ts where
  ends := by
    have hends := h.exists_eq_append
    rwa [Nat.zero_add, utf8Length_toList] at hends
  length_le := by
    rw [← String.length_toList]
    exact h.length_le
  ascending := h.pairwise_offset_lt
  disjoint := h.pairwise_stop_le
  nonempty := h.span_ne_nil
  span_isSlice := by
    intro t ht
    obtain ⟨before, after, htext, hoffset⟩ := h.exists_eq_append_span t ht
    rw [stop, hoffset, Nat.zero_add]
    exact isSlice_of_toList_eq htext
  text_isSlice := by
    intro t ht
    obtain ⟨before, after, htext, hoffset⟩ := h.exists_eq_append_span t ht
    obtain ⟨opening, closing, hspan, hplace⟩ := t.exists_span_eq
    have hwhole : text.toList =
        (before ++ opening) ++ (t.text.toList ++ (closing ++ after)) := by
      rw [htext, hspan]
      simp
    have hslice := isSlice_of_toList_eq hwhole
    rw [utf8Length_append, String.ofList_toList, utf8Length_toList] at hslice
    rw [hplace, hoffset, Nat.zero_add]
    exact hslice
  layout := by
    intro i hi huncovered
    have hb : (bytes text.toList)[i]? = some text.toByteArray[i] := by
      have hsize : i < (bytes text.toList).length := by
        rw [length_bytes, utf8Length_toList]
        exact hi
      rw [List.getElem?_eq_getElem hsize, List.getElem_eq_getElem_toByteArray]
      simp only [toByteArray_bytes]
    exact h.mem_layoutBytes_of_uncovered hb (by simpa using huncovered)
  woven := h.exists_gaps

end Token

namespace Lexer

/-- What a lexer hands out when it is asked a number of times for its next token. A lexer that has
none left stays as it is. -/
def answers : Nat → Lexer → List (Option Token)
  | 0, _ => []
  | n + 1, l =>
    match l.next? with
    | some (t, l') => some t :: answers n l'
    | none => none :: answers n l

/-- A lexer hands out its tokens in order, and nothing from then on. -/
theorem answers_eq (n : Nat) (l : Lexer) :
    l.answers n = (List.range n).map fun i => l.tokens[i]? := by
  induction n generalizing l with
  | zero => rfl
  | succ n ih =>
    rw [List.range_succ_eq_map, List.map_cons, List.map_map]
    cases h : l.next? with
    | none =>
      have htokens := Token.tokens_of_next?_eq_none h
      simp only [answers, h, ih l, htokens, List.getElem?_nil, Function.comp_def]
    | some r =>
      obtain ⟨t, l'⟩ := r
      have htokens := Token.tokens_of_next?_eq_some h
      simp only [answers, h, ih l', htokens, List.getElem?_cons_zero, List.getElem?_cons_succ,
        Function.comp_def]

end Lexer

/-- The tokens of a text make it up, and a lexer at its start hands out these tokens and nothing
after them, however often it is asked. -/
theorem tokenize_cover (text : String) :
    Token.Cover text (tokenize text) ∧
      ∀ n, (Lexer.ofString text).answers n = (List.range n).map fun i => (tokenize text)[i]? :=
  ⟨(Token.tiling_lex 0 text.toList).cover, fun n => Lexer.answers_eq n _⟩

/-- The quotes belong to the span of a quoted text but not to its text; offsets count bytes. -/
example : (tokenize "a: \"é\" ").map (fun t => (t.offset, t.textOffset, t.stop)) =
    [(0, 0, 1), (1, 1, 2), (3, 4, 7), (8, 8, 8)] := by decide +kernel

end FieldFilter
