import FieldFilter.Token.Lexer
import Mathlib.Data.List.TakeWhile

/-!
# How a text falls into tokens

The lexer as a function of the characters in front of it: `lex` passes over layout, cuts one token
and goes on with the rest. Where a character stands that no token has behind its first one, a text
can be cut in two, and its tokens are those of the two parts. `Cut` lists the cuts that there are.
-/

namespace FieldFilter.Token

/-! ## Lexing as a recursion on the text -/

/-- The tokens from a place on are the next one and those behind it. -/
theorem tokens_of_next?_eq_some {s s' : Lexer} {t : Token} (h : s.next? = some (t, s')) :
    s.tokens = t :: s'.tokens := by
  rw [Lexer.tokens]
  split
  · simp_all
  · rename_i h'
    rw [h] at h'
    cases h'
    rfl

/-- Where there is no next token, there are none. -/
theorem tokens_of_next?_eq_none {s : Lexer} (h : s.next? = none) : s.tokens = [] := by
  rw [Lexer.tokens]
  split
  · rfl
  · simp_all

/-- The tokens of a run of characters that starts at some offset. -/
def lex (offset : Nat) (cs : List Char) : List Token := (Lexer.mk cs offset false).tokens

/-- The tokens of a text, as a function of its characters. -/
theorem tokenize_eq_lex (query : String) : tokenize query = lex 0 query.toList := rfl

/-- Nothing but the end of input is left of an empty text. -/
theorem lex_nil (offset : Nat) : lex offset [] = [endAt offset] := by
  unfold lex
  rw [tokens_of_next?_eq_some rfl, tokens_of_next?_eq_none rfl]
  rfl

/-- Layout moves the offset and leaves no token. -/
theorem lex_layout {c : Char} (hc : isLayout c = true) (offset : Nat) (cs : List Char) :
    lex offset (c :: cs) = lex (offset + c.utf8Size) cs := by
  have hskip : (Lexer.mk (c :: cs) offset false).skipLayout =
      (Lexer.mk cs (offset + c.utf8Size) false).skipLayout := by
    simp [Lexer.skipLayout, hc, Nat.add_assoc]
  have hnext : (Lexer.mk (c :: cs) offset false).next? =
      (Lexer.mk cs (offset + c.utf8Size) false).next? := by
    unfold Lexer.next?
    rw [hskip]
  unfold lex
  rw [Lexer.tokens, Lexer.tokens, hnext]

/-- A character that is not layout starts a token, behind which lexing goes on. -/
theorem lex_token {c : Char} (hc : isLayout c = false) (offset : Nat) (cs : List Char) :
    lex offset (c :: cs) =
      ⟨(munch c cs).kind, textOf (munch c cs).kind (munch c cs).span, offset⟩ ::
        lex (offset + utf8Length (munch c cs).span) (munch c cs).rest := by
  have hskip : (Lexer.mk (c :: cs) offset false).skipLayout = ⟨c :: cs, offset, false⟩ := by
    simp [Lexer.skipLayout, hc]
  unfold lex
  apply tokens_of_next?_eq_some
  unfold Lexer.next?
  simp only [hskip]
  rfl

/-- A text is used up by passing over layout and cutting off tokens. -/
@[elab_as_elim]
theorem lex_induction {motive : List Char → Prop} (nil : motive [])
    (layout : ∀ c cs, isLayout c = true → motive cs → motive (c :: cs))
    (token : ∀ c cs, isLayout c = false → motive (munch c cs).rest → motive (c :: cs))
    (cs : List Char) : motive cs := by
  induction hn : cs.length using Nat.strongRecOn generalizing cs with
  | ind n ih =>
    cases cs with
    | nil => exact nil
    | cons c cs =>
      subst hn
      cases hc : isLayout c with
      | true => exact layout c cs hc (ih _ (Nat.lt_succ_self _) cs rfl)
      | false => exact token c cs hc (ih _ (length_rest_munch_lt c cs) _ rfl)

/-- The kinds that a cut gives are those that the grammar knows, and the unknown one. -/
theorem kind_munch_ne_endOfInput (c : Char) (cs : List Char) :
    (munch c cs).kind ≠ .endOfInput := by
  unfold munch
  split <;> try simp
  · unfold munchQuoted
    split <;> simp
  · split
    · unfold munchWord wordKind
      simp only
      split <;> simp
    · split <;> simp [munchNumber]

/-! ## Tokens in front of the end of input -/

/-- The tokens of a run of characters without the end of input. -/
def lexBody (offset : Nat) (cs : List Char) : List Token := (lex offset cs).dropLast

/-- There is always an end of input. -/
theorem lex_ne_nil (offset : Nat) (cs : List Char) : lex offset cs ≠ [] := by
  induction cs using lex_induction generalizing offset with
  | nil => simp [lex_nil]
  | layout c cs hc ih => simpa [lex_layout hc] using ih _
  | token c cs hc _ => simp [lex_token hc]

@[simp] theorem lexBody_nil (offset : Nat) : lexBody offset [] = [] := by
  simp [lexBody, lex_nil]

/-- Layout in front is passed over. -/
theorem lexBody_layout {c : Char} (hc : isLayout c = true) (offset : Nat) (cs : List Char) :
    lexBody offset (c :: cs) = lexBody (offset + c.utf8Size) cs := by
  simp [lexBody, lex_layout hc]

/-- What is not layout starts a token, which is munched. -/
theorem lexBody_token {c : Char} (hc : isLayout c = false) (offset : Nat) (cs : List Char) :
    lexBody offset (c :: cs) =
      ⟨(munch c cs).kind, textOf (munch c cs).kind (munch c cs).span, offset⟩ ::
        lexBody (offset + utf8Length (munch c cs).span) (munch c cs).rest := by
  simp only [lexBody, lex_token hc]
  exact List.dropLast_cons_of_ne_nil (lex_ne_nil _ _)

/-- No byte is lost in munching. -/
theorem utf8Length_munch (c : Char) (cs : List Char) :
    utf8Length (munch c cs).span + utf8Length (munch c cs).rest = utf8Length (c :: cs) := by
  rw [← utf8Length_append, munch_span_append_rest]

/-- The end of input stands behind all other tokens, at the end of the text. -/
theorem lex_eq_lexBody_append (offset : Nat) (cs : List Char) :
    lex offset cs = lexBody offset cs ++ [endAt (offset + utf8Length cs)] := by
  induction cs using lex_induction generalizing offset with
  | nil => simp [lex_nil]
  | layout c cs hc ih => simp [lex_layout hc, lexBody_layout hc, ih, Nat.add_assoc]
  | token c cs hc ih =>
    rw [lex_token hc, lexBody_token hc, ih, ← utf8Length_munch c cs, Nat.add_assoc]
    rfl

/-- The end of input stands nowhere else. -/
theorem kind_ne_endOfInput_of_mem_lexBody {offset : Nat} {cs : List Char} :
    ∀ t ∈ lexBody offset cs, t.kind ≠ .endOfInput := by
  induction cs using lex_induction generalizing offset with
  | nil => simp
  | layout c cs hc ih => simpa [lexBody_layout hc] using ih
  | token c cs hc ih =>
    rw [lexBody_token hc]
    simpa [kind_munch_ne_endOfInput] using ih

/-- All tokens but the end of input belong to the text. -/
theorem mem_lexBody_of_mem_tokenize {text : String} {t : Token} (ht : t ∈ tokenize text)
    (hkind : t.kind ≠ .endOfInput) : t ∈ lexBody 0 text.toList := by
  rw [tokenize_eq_lex, lex_eq_lexBody_append, List.mem_append, List.mem_singleton] at ht
  exact ht.resolve_right fun h => hkind (h ▸ rfl)

/-! ## Moving a text -/

/-- The token as it stands in a text that has some more bytes in front. -/
def shift (bytes : Nat) (t : Token) : Token := { t with offset := t.offset + bytes }

/-- Bytes in front of a text move its tokens and do nothing else. -/
theorem lexBody_add (offset bytes : Nat) (cs : List Char) :
    lexBody (offset + bytes) cs = (lexBody offset cs).map (shift bytes) := by
  induction cs using lex_induction generalizing offset with
  | nil => simp
  | layout c cs hc ih => rw [lexBody_layout hc, lexBody_layout hc, Nat.add_right_comm, ih]
  | token c cs hc ih =>
    simp only [lexBody_token hc, List.map_cons, ← ih]
    rw [Nat.add_right_comm]
    rfl

/-! ## Cutting a text in two -/

/-- A character that no token has behind its first one, quotes apart. -/
def isSeam (c : Char) : Bool := !isWordPart c && c != '.' && c != '='

/-- A text that cannot continue a token in front of it. -/
def Seam (b : List Char) : Prop := ∀ c ∈ b.head?, isSeam c = true

/-- The end of a text is a seam. -/
theorem seam_nil : Seam [] := by
  rintro c ⟨⟩

/-- A text is a seam if its first character is one at which every token ends. -/
theorem seam_cons {c : Char} (hc : isSeam c = true) (cs : List Char) : Seam (c :: cs) := by
  rintro d ⟨⟩
  exact hc

/-- A front that stops at the seam does not reach behind it. -/
theorem takeWhile_append_of_head {p : Char → Bool} {b : List Char}
    (hb : ∀ c ∈ b.head?, p c = false) (a : List Char) :
    (a ++ b).takeWhile p = a.takeWhile p := by
  induction a with
  | nil =>
    cases b with
    | nil => rfl
    | cons c b => simp [hb c rfl]
  | cons c a ih => simp [List.takeWhile_cons, ih]

/-- What is left of a front that stops at the seam is left in front of it. -/
theorem dropWhile_append_of_head {p : Char → Bool} {b : List Char}
    (hb : ∀ c ∈ b.head?, p c = false) (a : List Char) :
    (a ++ b).dropWhile p = a.dropWhile p ++ b := by
  induction a with
  | nil =>
    cases b with
    | nil => rfl
    | cons c b => simp [hb c rfl]
  | cons c a ih =>
    simp only [List.cons_append, List.dropWhile_cons, ih]
    split <;> rfl

/-- A text that cannot continue a word or a number in front of it. -/
structure EndsWord (b : List Char) : Prop where
  isWordPart : ∀ c ∈ b.head?, isWordPart c = false
  fraction : fraction b = []

/-- A text that starts with anything but a dot has no fraction at its head. -/
theorem fraction_of_head?_ne {b : List Char} (h : b.head? ≠ some '.') : fraction b = [] := by
  unfold fraction
  split
  · exact absurd rfl h
  · rfl

/-- A seam ends words and numbers. -/
theorem Seam.endsWord {b : List Char} (hb : Seam b) : EndsWord b := by
  constructor
  · intro c hc
    have := hb c hc
    simp_all [isSeam]
  · apply fraction_of_head?_ne
    intro hdot
    have := hb '.' hdot
    simp [isSeam] at this

/-- What ends a word is no digit. -/
theorem EndsWord.isDigit {b : List Char} (hb : EndsWord b) :
    ∀ c ∈ b.head?, c.isDigit = false := by
  intro c hc
  have := hb.isWordPart c hc
  simp_all [Token.isWordPart, Char.isAlphanum]

/-- A fraction does not reach behind what ends a word. -/
theorem fraction_append {b : List Char} (hb : EndsWord b) (cs : List Char) :
    Token.fraction (cs ++ b) = Token.fraction cs := by
  cases cs with
  | nil => exact hb.fraction
  | cons c cs =>
    by_cases hc : c = '.'
    · subst hc
      simp [Token.fraction, takeWhile_append_of_head hb.isDigit]
    · rw [fraction_of_head?_ne (by simpa using hc), fraction_of_head?_ne (by simpa using hc)]

/-- A word does not reach behind what ends a word. -/
theorem munchWord_append {b : List Char} (hb : EndsWord b) (cs : List Char) :
    munchWord (cs ++ b) =
      ⟨(munchWord cs).kind, (munchWord cs).span, (munchWord cs).rest ++ b⟩ := by
  simp only [munchWord, takeWhile_append_of_head hb.isWordPart,
    dropWhile_append_of_head hb.isWordPart]

/-- A number does not reach behind what ends a word. -/
theorem munchNumber_append {b : List Char} (hb : EndsWord b) (cs : List Char) :
    munchNumber (cs ++ b) =
      ⟨(munchNumber cs).kind, (munchNumber cs).span, (munchNumber cs).rest ++ b⟩ := by
  have hle : (fraction (cs.dropWhile Char.isDigit)).length ≤
      (cs.dropWhile Char.isDigit).length := by
    have h := congrArg List.length (fraction_append_drop (cs.dropWhile Char.isDigit))
    rw [List.length_append] at h
    omega
  simp only [munchNumber, takeWhile_append_of_head hb.isDigit,
    dropWhile_append_of_head hb.isDigit, fraction_append hb,
    List.drop_append_of_le_length hle]

/-- A quoted text ends at the first quote behind its opening one. -/
theorem munchQuoted_of_not_mem {inner : List Char} (h : '"' ∉ inner) (rest : List Char) :
    munchQuoted (inner ++ '"' :: rest) = ⟨.quoted, '"' :: inner ++ ['"'], rest⟩ := by
  have hinner : ∀ c ∈ inner, (c != '"') = true := by
    intro c hc
    simp only [bne_iff_ne]
    rintro rfl
    exact h hc
  unfold munchQuoted
  rw [List.dropWhile_append_of_pos hinner, List.takeWhile_append_of_pos hinner]
  simp

/-- A quoted text that is closed does not reach behind its closing quote. -/
theorem munchQuoted_append {cs : List Char} (hquote : '"' ∈ cs) (b : List Char) :
    munchQuoted (cs ++ b) =
      ⟨(munchQuoted cs).kind, (munchQuoted cs).span, (munchQuoted cs).rest ++ b⟩ := by
  obtain ⟨inner, rest, rfl, hinner⟩ := List.eq_append_cons_of_mem hquote
  rw [List.append_assoc, List.cons_append, munchQuoted_of_not_mem hinner,
    munchQuoted_of_not_mem hinner]

/-- Without a quote that closes it, a quoted text is unknown to the end. -/
theorem munchQuoted_of_open {cs : List Char} (h : '"' ∉ cs) :
    munchQuoted cs = ⟨.unknown, '"' :: cs, []⟩ := by
  have hcs : cs.dropWhile (· != '"') = [] := by
    rw [List.dropWhile_eq_nil_iff]
    intro c hc
    simp only [bne_iff_ne]
    rintro rfl
    exact h hc
  simp only [munchQuoted, hcs]

/-- An opening quote is known by the quote that closes it. -/
theorem mem_of_kind_munchQuoted_ne {cs : List Char} (h : (munchQuoted cs).kind ≠ .unknown) :
    '"' ∈ cs :=
  Decidable.byContradiction fun hquote => h (by rw [munchQuoted_of_open hquote])

/-- A dot that no other dot follows is unknown. -/
theorem munch_dot {cs : List Char} (h : cs.head? ≠ some '.') :
    munch '.' cs = ⟨.unknown, ['.'], cs⟩ := by
  have hstart : isWordStart '.' = false := by decide
  unfold munch
  split <;> simp_all

/-- A cut where no token of a fixed spelling can start. -/
theorem munch_of_plain {c : Char} (hc : c ∉ [':', '(', ')', '.', '>', '<', '"'])
    (cs : List Char) :
    munch c cs =
      if isWordStart c then munchWord (c :: cs)
      else if c.isDigit then munchNumber (c :: cs)
      else ⟨.unknown, [c], cs⟩ := by
  unfold munch
  split <;> simp_all

/-- A comparison sign that no equals sign follows stands alone. -/
theorem munch_above {cs : List Char} (h : cs.head? ≠ some '=') :
    munch '>' cs = ⟨.comparison .above, ['>'], cs⟩ := by
  unfold munch
  split <;> simp_all

/-- A `<` stands alone unless an `=` follows. -/
theorem munch_below {cs : List Char} (h : cs.head? ≠ some '=') :
    munch '<' cs = ⟨.comparison .below, ['<'], cs⟩ := by
  unfold munch
  split <;> simp_all

/-- A character that does not stand in front of a seam does not stand at one either. -/
theorem Seam.head?_append_ne {b : List Char} (hb : Seam b) {d : Char} (hd : isSeam d = false)
    {cs : List Char} (h : cs.head? ≠ some d) : (cs ++ b).head? ≠ some d := by
  cases cs with
  | nil =>
    intro hhead
    have := hb d hhead
    rw [hd] at this
    cases this
  | cons c cs => exact h

/-- A cut that ends in front of a seam is the same whatever stands behind the seam. -/
theorem munch_append {c : Char} {cs b : List Char} (hb : Seam b) (hquote : c = '"' → '"' ∈ cs) :
    munch c (cs ++ b) = ⟨(munch c cs).kind, (munch c cs).span, (munch c cs).rest ++ b⟩ := by
  by_cases hplain : c ∈ [':', '(', ')', '.', '>', '<', '"']
  · simp only [List.mem_cons, List.not_mem_nil, or_false] at hplain
    rcases hplain with rfl | rfl | rfl | rfl | rfl | rfl | rfl
    · rfl
    · rfl
    · rfl
    · by_cases h : cs.head? = some '.'
      · obtain ⟨rest, rfl⟩ := List.head?_eq_some_iff.1 h
        rfl
      · rw [munch_dot h, munch_dot (hb.head?_append_ne rfl h)]
    · by_cases h : cs.head? = some '='
      · obtain ⟨rest, rfl⟩ := List.head?_eq_some_iff.1 h
        rfl
      · rw [munch_above h, munch_above (hb.head?_append_ne rfl h)]
    · by_cases h : cs.head? = some '='
      · obtain ⟨rest, rfl⟩ := List.head?_eq_some_iff.1 h
        rfl
      · rw [munch_below h, munch_below (hb.head?_append_ne rfl h)]
    · exact munchQuoted_append (hquote rfl) b
  · rw [munch_of_plain hplain, munch_of_plain hplain, ← List.cons_append,
      munchWord_append hb.endsWord, munchNumber_append hb.endsWord]
    split
    · rfl
    · split <;> rfl

/-- A text that leaves no quoted text open can be cut at a seam behind it: the tokens on either side
of the seam are those of the two parts. -/
def Closed (a : List Char) : Prop :=
  ∀ offset b, Seam b → lex offset (a ++ b) = lexBody offset a ++ lex (offset + utf8Length a) b

/-- The empty text is closed. -/
theorem closed_nil : Closed [] := by
  intro offset b _
  simp

/-- Layout in front leaves a text closed. -/
theorem Closed.layout {c : Char} {cs : List Char} (hc : isLayout c = true) (h : Closed cs) :
    Closed (c :: cs) := by
  intro offset b hb
  rw [List.cons_append, lex_layout hc, lexBody_layout hc, h _ b hb, utf8Length_cons, Nat.add_assoc]

/-- A text is closed if its first token is, and what follows this token. -/
theorem Closed.token {c : Char} {cs : List Char} (hc : isLayout c = false)
    (hquote : c = '"' → '"' ∈ cs) (h : Closed (munch c cs).rest) : Closed (c :: cs) := by
  intro offset b hb
  rw [List.cons_append, lex_token hc, munch_append hb hquote, lexBody_token hc, h _ b hb,
    ← utf8Length_munch c cs, Nat.add_assoc, List.cons_append]

/-- A text whose tokens are all known is closed. -/
theorem closed_of_known {a : List Char} {offset : Nat}
    (ha : ∀ t ∈ lexBody offset a, t.kind ≠ .unknown) : Closed a := by
  induction a using lex_induction generalizing offset with
  | nil => exact closed_nil
  | layout c cs hc ih =>
    rw [lexBody_layout hc] at ha
    exact (ih ha).layout hc
  | token c cs hc ih =>
    rw [lexBody_token hc] at ha
    refine Closed.token hc ?_ (ih fun t ht => ha t (List.mem_cons_of_mem _ ht))
    rintro rfl
    exact mem_of_kind_munchQuoted_ne (ha _ List.mem_cons_self)

/-! ## Kinds of cuts -/

/-- What a cut can be, given where it starts: its kind tells the form of its span. Signs, keywords,
truth values and unknown stretches need no telling apart here. -/
inductive Cut (c : Char) (cs : List Char) : Munch → Prop
  | identifier (hc : isWordStart c = true)
      (hkind : wordKind ((c :: cs).takeWhile isWordPart) = .identifier) :
      Cut c cs (munchWord (c :: cs))
  | number (hc : c.isDigit = true) : Cut c cs (munchNumber (c :: cs))
  | quoted {inner rest : List Char} (hinner : '"' ∉ inner) :
      Cut c cs ⟨.quoted, '"' :: inner ++ ['"'], rest⟩
  | other {m : Munch} (hkind : m.kind ∉ [.identifier, .number, .quoted]) : Cut c cs m

/-- Munching cuts after a quoted text. -/
theorem cut_munchQuoted (c : Char) (cs : List Char) : Cut c cs (munchQuoted cs) := by
  by_cases hquote : '"' ∈ cs
  · obtain ⟨inner, rest, rfl, hinner⟩ := List.eq_append_cons_of_mem hquote
    rw [munchQuoted_of_not_mem hinner]
    exact .quoted hinner
  · have hkind : (munchQuoted cs).kind = .unknown :=
      Decidable.byContradiction fun h => hquote (mem_of_kind_munchQuoted_ne h)
    exact .other (by simp [hkind])

/-- Munching cuts after a word. -/
theorem cut_munchWord {c : Char} (hc : isWordStart c = true) (cs : List Char) :
    Cut c cs (munchWord (c :: cs)) := by
  by_cases hkind : wordKind ((c :: cs).takeWhile isWordPart) = .identifier
  · exact .identifier hc hkind
  · refine .other ?_
    simp only [munchWord]
    unfold wordKind at hkind ⊢
    split <;> simp_all

/-- Every cut is one of these. -/
theorem cut_munch (c : Char) (cs : List Char) : Cut c cs (munch c cs) := by
  unfold munch
  split <;> try (apply Cut.other; simp; done)
  · exact cut_munchQuoted _ _
  · split
    · exact cut_munchWord ‹_› _
    · split
      · exact .number ‹_›
      · exact .other (by simp)

end FieldFilter.Token
