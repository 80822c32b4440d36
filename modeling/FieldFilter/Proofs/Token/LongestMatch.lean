import FieldFilter.Proofs.Token.Lexemes
import FieldFilter.Proofs.Token.Tiling

/-!
# The longest match wins

The query language has lexical classes: signs, words, numbers and quoted texts. A class is a set of
texts, given here without regard to how a lexer might find them. A token covers the longest text of
any class with which the query goes on at its place, and has the kind that the class gives to this
text. Where no class has such a text, the token is unknown: a quote that is never closed takes the
rest of the query, any other character stands alone.
-/

namespace FieldFilter.Token

/-! ## Lexical classes -/

/-- A class of texts that are tokens. -/
inductive Class where
  | colon
  | leftParen
  | rightParen
  | dots
  | comparison (op : Comparison)
  /-- A letter or low line, and letters, low lines and digits behind it. -/
  | word
  /-- Digits, with or without a point and more digits. -/
  | number
  /-- A quote, text without quotes, and another quote. -/
  | quoted

/-- The letters from `A` to `Z` and from `a` to `z`, and the low line. -/
def IsLetter (c : Char) : Prop := ('A' ≤ c ∧ c ≤ 'Z') ∨ ('a' ≤ c ∧ c ≤ 'z') ∨ c = '_'

/-- The digits from `0` to `9`. -/
def IsNumeral (c : Char) : Prop := '0' ≤ c ∧ c ≤ '9'

/-- The texts of a class. -/
inductive Class.Has : Class → List Char → Prop
  | colon : Has .colon [':']
  | leftParen : Has .leftParen ['(']
  | rightParen : Has .rightParen [')']
  | dots : Has .dots ['.', '.']
  | comparison (op : Comparison) : Has (.comparison op) op.symbol.toList
  | word {c : Char} {cs : List Char} (hc : IsLetter c)
      (hcs : ∀ d ∈ cs, IsLetter d ∨ IsNumeral d) : Has .word (c :: cs)
  | whole {ds : List Char} (hne : ds ≠ []) (hds : ∀ d ∈ ds, IsNumeral d) : Has .number ds
  | fraction {ds es : List Char} (hne : ds ≠ []) (hds : ∀ d ∈ ds, IsNumeral d) (hne' : es ≠ [])
      (hes : ∀ e ∈ es, IsNumeral e) : Has .number (ds ++ '.' :: es)
  | quoted {inner : List Char} (hinner : '"' ∉ inner) : Has .quoted ('"' :: inner ++ ['"'])

/-- The words that are no identifiers. -/
def keywords : List (String × Kind) :=
  [("OR", .connective .or), ("AND", .connective .and), ("NOT", .not), ("true", .boolean),
    ("false", .boolean)]

/-- The kind of a token with a text of the class. A word has the kind of the keyword that it is as
a whole, and is an identifier otherwise. -/
def Class.kind (cs : List Char) : Class → Kind
  | colon => .colon
  | leftParen => .leftParen
  | rightParen => .rightParen
  | dots => .dots
  | comparison op => .comparison op
  | word => (keywords.lookup (String.ofList cs)).getD .identifier
  | number => .number
  | quoted => .quoted

/-- Some class has a text with which the characters begin. -/
def Classified (ahead : List Char) : Prop :=
  ∃ (cls : Class) (cs : List Char), cls.Has cs ∧ cs <+: ahead

/-- A token of some kind and span is the longest match for the characters ahead. -/
structure LongestMatch (kind : Kind) (span ahead : List Char) : Prop where
  isPrefix : span <+: ahead
  /-- No class has a longer text there. -/
  longest : ∀ (cls : Class) (cs : List Char), cls.Has cs → cs <+: ahead → cs.length ≤ span.length
  /-- The span is a text of a class if there is any such text. -/
  classified : Classified ahead → ∃ cls : Class, cls.Has span
  /-- The kind is that of the class of the span. -/
  kind_eq : ∀ cls : Class, cls.Has span → kind = cls.kind span
  /-- Where no class has a text, an open quote takes everything and any other character itself. -/
  unknown : ¬Classified ahead →
    kind = .unknown ∧ span = if ahead.head? = some '"' then ahead else ahead.take 1

/-! ## Characters and words -/

/-- The letters that start a word. -/
theorem isWordStart_iff {c : Char} : isWordStart c = true ↔ IsLetter c := by
  have hupper : c.isUpper = decide ('A' ≤ c ∧ c ≤ 'Z') := rfl
  have hlower : c.isLower = (decide ('a' ≤ c) && decide (c ≤ 'z')) := rfl
  have halpha : c.isAlpha = (c.isUpper || c.isLower) := rfl
  simp [isWordStart, IsLetter, halpha, hupper, hlower, or_assoc]

theorem isDigit_iff {c : Char} : c.isDigit = true ↔ IsNumeral c := by
  simp [IsNumeral, Char.isDigit, Char.le_def]

/-- The letters and digits that a word goes on with. -/
theorem isWordPart_iff {c : Char} : isWordPart c = true ↔ IsLetter c ∨ IsNumeral c := by
  rw [← isWordStart_iff, ← isDigit_iff, isWordPart, isWordStart, Char.isAlphanum]
  simp only [Bool.or_eq_true]
  exact or_right_comm

/-- The lexer tells words apart as the table of keywords does. -/
theorem wordKind_eq (cs : List Char) : wordKind cs = Class.word.kind cs := by
  unfold wordKind
  split
  iterate 5 rfl
  rename_i hor hand hnot htrue hfalse
  have hne {word : String} (h : cs ≠ word.toList) : (String.ofList cs == word) = false := by
    rw [beq_eq_false_iff_ne]
    rintro rfl
    exact h String.toList_ofList.symm
  simp [Class.kind, keywords, List.lookup_cons, @hne "OR" hor, @hne "AND" hand, @hne "NOT" hnot,
    @hne "true" htrue, @hne "false" hfalse]

/-- What is of a class is known. -/
theorem Class.kind_ne_unknown (cls : Class) (cs : List Char) : cls.kind cs ≠ .unknown := by
  cases cls with
  | word =>
    rw [← wordKind_eq]
    unfold wordKind
    split <;> simp
  | _ => simp [kind]

/-! ## Texts of classes at the head of a text -/

/-- A text of a class lies within a cut, which has the kind of the class if the text fills it. -/
structure Class.Fits (cls : Class) (cs : List Char) (m : Munch) : Prop where
  isPrefix : cs <+: m.span
  known : m.kind ≠ .unknown
  kind_eq : cs = m.span → m.kind = cls.kind cs

namespace Class.Fits

variable {cls : Class} {cs : List Char} {m : Munch}

/-- A text that fills the cut. -/
theorem of_eq (hspan : m.span = cs) (hkind : m.kind = cls.kind cs) : cls.Fits cs m :=
  ⟨hspan ▸ List.prefix_refl _, hkind ▸ cls.kind_ne_unknown cs, fun _ => hkind⟩

/-- A text that the cut goes beyond. -/
theorem of_length_lt (hspan : cs <+: m.span) (hlt : cs.length < m.span.length)
    (hknown : m.kind ≠ .unknown) : cls.Fits cs m :=
  ⟨hspan, hknown, fun h => absurd (congrArg List.length h) (Nat.ne_of_lt hlt)⟩

end Class.Fits

/-- What has a property throughout stays within the longest run that has it. -/
theorem prefix_takeWhile {p : Char → Bool} {cs ahead : List Char} (h : cs <+: ahead)
    (hcs : ∀ c ∈ cs, p c = true) : cs <+: ahead.takeWhile p := by
  obtain ⟨rest, rfl⟩ := h
  rw [List.takeWhile_append_of_pos hcs]
  exact List.prefix_append _ _

/-- A text of a class at the head of a text lies within the first token. -/
theorem Class.Has.fits {cls : Class} {pre : List Char} (h : cls.Has pre) {c : Char}
    {cs : List Char} (hpre : pre <+: c :: cs) : cls.Fits pre (munch c cs) := by
  cases h with
  | colon | leftParen | rightParen | dots =>
    obtain ⟨rest, ⟨⟩⟩ := hpre
    exact .of_eq rfl rfl
  | comparison op =>
    obtain ⟨rest, hrest⟩ := hpre
    cases op with
    | above =>
      obtain ⟨rfl, rfl⟩ : '>' = c ∧ rest = cs := List.cons.inj hrest
      by_cases h : rest.head? = some '='
      · obtain ⟨more, rfl⟩ := List.head?_eq_some_iff.1 h
        exact .of_length_lt ⟨['='], rfl⟩ (Nat.lt_succ_self 1) nofun
      · exact .of_eq (by rw [munch_above h]; rfl) (by rw [munch_above h]; rfl)
    | below =>
      obtain ⟨rfl, rfl⟩ : '<' = c ∧ rest = cs := List.cons.inj hrest
      by_cases h : rest.head? = some '='
      · obtain ⟨more, rfl⟩ := List.head?_eq_some_iff.1 h
        exact .of_length_lt ⟨['='], rfl⟩ (Nat.lt_succ_self 1) nofun
      · exact .of_eq (by rw [munch_below h]; rfl) (by rw [munch_below h]; rfl)
    | atLeast =>
      obtain ⟨rfl, rfl⟩ : '>' = c ∧ '=' :: rest = cs := List.cons.inj hrest
      exact .of_eq rfl rfl
    | atMost =>
      obtain ⟨rfl, rfl⟩ : '<' = c ∧ '=' :: rest = cs := List.cons.inj hrest
      exact .of_eq rfl rfl
  | @word d ds hd hds =>
    obtain rfl := (List.cons_prefix_cons.1 hpre).1
    have hall : ∀ e ∈ d :: ds, isWordPart e = true := by
      intro e he
      rw [isWordPart_iff]
      rcases List.mem_cons.1 he with rfl | he
      · exact .inl hd
      · exact hds e he
    rw [munch_of_isWordStart (isWordStart_iff.2 hd)]
    refine ⟨prefix_takeWhile hpre hall, ?_, fun hfill => ?_⟩
    · simp only [munchWord, wordKind_eq]
      exact Class.kind_ne_unknown _ _
    · rw [hfill]
      exact wordKind_eq _
  | whole hne hds =>
    obtain ⟨d, ds, rfl⟩ := List.exists_cons_of_ne_nil hne
    obtain rfl := (List.cons_prefix_cons.1 hpre).1
    have hall : ∀ e ∈ d :: ds, e.isDigit = true := fun e he => isDigit_iff.2 (hds e he)
    rw [munch_of_isDigit (hall d List.mem_cons_self)]
    refine ⟨?_, by simp [munchNumber], fun _ => rfl⟩
    exact (prefix_takeWhile hpre hall).trans (List.prefix_append _ _)
  | @fraction ds es hne hds hne' hes =>
    obtain ⟨d, ds, rfl⟩ := List.exists_cons_of_ne_nil hne
    obtain ⟨e, es, rfl⟩ := List.exists_cons_of_ne_nil hne'
    obtain rfl := (List.cons_prefix_cons.1 hpre).1
    have hall : ∀ e ∈ d :: ds, e.isDigit = true := fun e he => isDigit_iff.2 (hds e he)
    have hall' : ∀ d ∈ e :: es, d.isDigit = true := fun d hd => isDigit_iff.2 (hes d hd)
    rw [munch_of_isDigit (hall d List.mem_cons_self)]
    refine ⟨?_, by simp [munchNumber], fun _ => rfl⟩
    obtain ⟨rest, hrest⟩ := hpre
    have hsplit : d :: cs = (d :: ds) ++ '.' :: (e :: es ++ rest) := by
      rw [← hrest]
      simp
    have hmore := prefix_takeWhile (List.prefix_append (e :: es) rest) hall'
    have hne : (e :: es ++ rest).takeWhile Char.isDigit ≠ [] :=
      List.ne_nil_of_mem (hmore.subset List.mem_cons_self)
    have htake : ('.' :: (e :: es ++ rest)).takeWhile Char.isDigit = [] := rfl
    have hdrop : ('.' :: (e :: es ++ rest)).dropWhile Char.isDigit =
      '.' :: (e :: es ++ rest) := rfl
    rw [hsplit]
    simp only [munchNumber]
    rw [List.takeWhile_append_of_pos hall, List.dropWhile_append_of_pos hall, htake, hdrop,
      List.append_nil, Token.fraction, if_neg hne]
    exact (List.prefix_append_right_inj _).2 (List.cons_prefix_cons.2 ⟨rfl, hmore⟩)
  | @quoted inner hinner =>
    obtain ⟨rest, hrest⟩ := hpre
    simp only [List.cons_append, List.append_assoc, List.nil_append] at hrest
    obtain ⟨rfl, rfl⟩ := List.cons.inj hrest
    have hmunch : munch '"' (inner ++ '"' :: rest) = ⟨.quoted, '"' :: inner ++ ['"'], rest⟩ :=
      munchQuoted_of_not_mem hinner rest
    exact .of_eq (by rw [hmunch]) (by rw [hmunch]; rfl)

/-! ## Cuts are longest matches -/

/-- A word is of some class. -/
theorem exists_has_munchWord {c : Char} (hc : isWordStart c = true) (cs : List Char) :
    ∃ cls : Class, cls.Has (munchWord (c :: cs)).span := by
  refine ⟨.word, ?_⟩
  simp only [munchWord, List.takeWhile_cons_of_pos (isWordPart_of_isWordStart hc)]
  exact .word (isWordStart_iff.1 hc) fun d hd => isWordPart_iff.1 (List.mem_takeWhile_imp hd)

/-- A number is of some class. -/
theorem exists_has_munchNumber {c : Char} (hc : c.isDigit = true) (cs : List Char) :
    ∃ cls : Class, cls.Has (munchNumber (c :: cs)).span := by
  have hne : (c :: cs).takeWhile Char.isDigit ≠ [] := by
    rw [List.takeWhile_cons_of_pos hc]
    exact List.cons_ne_nil _ _
  have hdigits {ds : List Char} : ∀ d ∈ ds.takeWhile Char.isDigit, IsNumeral d :=
    fun d hd => isDigit_iff.1 (List.mem_takeWhile_imp hd)
  refine ⟨.number, ?_⟩
  simp only [munchNumber]
  unfold Token.fraction
  split
  · split
    · rw [List.append_nil]
      exact .whole hne hdigits
    · exact .fraction hne hdigits ‹_› hdigits
  · rw [List.append_nil]
    exact .whole hne hdigits

/-- A cut is a text of a class, or it is unknown: an open quote with all that follows it, or a
single character. -/
theorem exists_has_or_unknown (c : Char) (cs : List Char) :
    (∃ cls : Class, cls.Has (munch c cs).span) ∨
      (munch c cs).kind = .unknown ∧ (munch c cs).span = if c = '"' then c :: cs else [c] := by
  by_cases hplain : c ∈ [':', '(', ')', '.', '>', '<', '"']
  · simp only [List.mem_cons, List.not_mem_nil, or_false] at hplain
    rcases hplain with rfl | rfl | rfl | rfl | rfl | rfl | rfl
    · exact .inl ⟨.colon, .colon⟩
    · exact .inl ⟨.leftParen, .leftParen⟩
    · exact .inl ⟨.rightParen, .rightParen⟩
    · by_cases h : cs.head? = some '.'
      · obtain ⟨rest, rfl⟩ := List.head?_eq_some_iff.1 h
        exact .inl ⟨.dots, .dots⟩
      · rw [munch_dot h]
        exact .inr ⟨rfl, rfl⟩
    · by_cases h : cs.head? = some '='
      · obtain ⟨rest, rfl⟩ := List.head?_eq_some_iff.1 h
        exact .inl ⟨_, .comparison .atLeast⟩
      · rw [munch_above h]
        exact .inl ⟨_, .comparison .above⟩
    · by_cases h : cs.head? = some '='
      · obtain ⟨rest, rfl⟩ := List.head?_eq_some_iff.1 h
        exact .inl ⟨_, .comparison .atMost⟩
      · rw [munch_below h]
        exact .inl ⟨_, .comparison .below⟩
    · by_cases hquote : '"' ∈ cs
      · obtain ⟨inner, rest, rfl, hinner⟩ := List.eq_append_cons_of_mem hquote
        have hmunch : munch '"' (inner ++ '"' :: rest) = ⟨.quoted, '"' :: inner ++ ['"'], rest⟩ :=
          munchQuoted_of_not_mem hinner rest
        rw [hmunch]
        exact .inl ⟨.quoted, .quoted hinner⟩
      · have hmunch : munch '"' cs = ⟨.unknown, '"' :: cs, []⟩ := munchQuoted_of_open hquote
        rw [hmunch]
        exact .inr ⟨rfl, rfl⟩
  · have hquote : c ≠ '"' := by
      rintro rfl
      simp at hplain
    rw [munch_of_plain hplain]
    split
    · exact .inl (exists_has_munchWord ‹_› cs)
    · split
      · exact .inl (exists_has_munchNumber ‹_› cs)
      · exact .inr ⟨rfl, rfl⟩

/-- Where a class has a text, the cut is not unknown. -/
theorem kind_munch_ne_unknown {c : Char} {cs : List Char} (h : Classified (c :: cs)) :
    (munch c cs).kind ≠ .unknown := by
  obtain ⟨cls, pre, hpre, hprefix⟩ := h
  exact (hpre.fits hprefix).known

/-- A cut is the longest match for the text that it is cut from. -/
theorem longestMatch_munch (c : Char) (cs : List Char) :
    LongestMatch (munch c cs).kind (munch c cs).span (c :: cs) where
  isPrefix := ⟨_, munch_span_append_rest c cs⟩
  longest cls pre hpre hprefix := (hpre.fits hprefix).isPrefix.length_le
  classified h := (exists_has_or_unknown c cs).resolve_right fun hunknown =>
    kind_munch_ne_unknown h hunknown.1
  kind_eq cls hcls := (hcls.fits ⟨_, munch_span_append_rest c cs⟩).kind_eq rfl
  unknown h := by
    rcases exists_has_or_unknown c cs with ⟨cls, hcls⟩ | hunknown
    · exact absurd ⟨cls, _, hcls, _, munch_span_append_rest c cs⟩ h
    · simpa using hunknown

/-! ## Tokens are longest matches -/

/-- Every token of a run of characters is the longest match for the characters from its place on. -/
theorem longestMatch_of_mem_lexBody {offset : Nat} {cs : List Char} :
    ∀ t ∈ lexBody offset cs, ∃ before ahead, cs = before ++ ahead ∧
      t.offset = offset + utf8Length before ∧ LongestMatch t.kind t.span ahead := by
  induction cs using lex_induction generalizing offset with
  | nil => simp
  | layout c cs hc ih =>
    rw [lexBody_layout hc]
    intro t ht
    obtain ⟨before, ahead, rfl, hoffset, hmatch⟩ := ih t ht
    refine ⟨c :: before, ahead, rfl, ?_, hmatch⟩
    rw [hoffset, utf8Length_cons, Nat.add_assoc]
  | token c cs hc ih =>
    rw [lexBody_token hc]
    intro t ht
    rcases List.mem_cons.1 ht with rfl | ht
    · refine ⟨[], c :: cs, rfl, rfl, ?_⟩
      rw [(cut_munch c cs).span_eq]
      exact longestMatch_munch c cs
    · obtain ⟨before, ahead, hrest, hoffset, hmatch⟩ := ih t ht
      refine ⟨(munch c cs).span ++ before, ahead, ?_, ?_, hmatch⟩
      · rw [List.append_assoc, ← hrest, munch_span_append_rest]
      · rw [hoffset, utf8Length_append, Nat.add_assoc]

end FieldFilter.Token

namespace FieldFilter

open Token

/-- Every token of a text but the end of input is the longest match at its place: its span is the
longest text of any lexical class with which the text goes on there, and its kind is that of the
class. Where no class has such a text, it is an unknown token, which takes the rest of the text if
it starts with a quote and a single character otherwise. -/
theorem longestMatch_of_mem_tokenize (text : String) :
    ∀ t ∈ tokenize text, t.kind ≠ .endOfInput → ∃ before ahead,
      text.toList = before ++ ahead ∧ t.offset = utf8Length before ∧
        LongestMatch t.kind t.span ahead := by
  intro t ht hkind
  simpa using longestMatch_of_mem_lexBody t (mem_lexBody_of_mem_tokenize ht hkind)

/-- A keyword at the head of a longer word is no token of its own. -/
theorem longestMatch_of_mem_tokenize_order :
    (⟨.identifier, "ORDER", 5⟩ : Token) ∈ tokenize "x:1..ORDER" ∧
      (⟨.identifier, "ORDER", 5⟩ : Token).kind ≠ .endOfInput ∧ ∃ before ahead,
        "x:1..ORDER".toList = before ++ ahead ∧ 5 = utf8Length before ∧
          LongestMatch .identifier "ORDER".toList ahead := by
  have hmem : (⟨.identifier, "ORDER", 5⟩ : Token) ∈ tokenize "x:1..ORDER" := by decide +kernel
  have hkind : (⟨.identifier, "ORDER", 5⟩ : Token).kind ≠ .endOfInput := by decide
  exact ⟨hmem, hkind, longestMatch_of_mem_tokenize _ _ hmem hkind⟩

end FieldFilter
