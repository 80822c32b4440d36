import FieldFilter.Proofs.Query.Acceptance
import FieldFilter.Proofs.Token.Lexemes

/-!
# Texts that spell queries

A run of characters spells a query at some level of the grammar if its tokens, wherever the run
stands and whatever follows it at a seam, are those of a phrase of that level. Such runs compose
as the grammar does: by groups, negations and connectives. What a whole text spells is what it is
parsed to, within the depth limit.
-/

namespace FieldFilter

open Token

/-! ## Moving a phrase -/

@[simp] theorem Token.value?_shift (bytes : Nat) (t : Token) : (t.shift bytes).value? = t.value? :=
  rfl

/-- A condition is spelled by its tokens wherever they are. -/
theorem Condition.SpelledBy.shift {c : Condition} {body : List Token} (h : c.SpelledBy body)
    (bytes : Nat) : c.SpelledBy (body.map (Token.shift bytes)) := by
  cases h with
  | @quoted t ht => exact .quoted (t := t.shift bytes) ht
  | compares hsign ht => exact .compares hsign (by rw [value?_shift, ht])
  | equals ht => exact .equals (by rw [value?_shift, ht])
  | within ht hdots hu => exact .within (by rw [value?_shift, ht]) hdots (by rw [value?_shift, hu])

namespace Phrase

variable {l : Level}

/-- The phrase as it stands in a text that has some more bytes in front. -/
def shift (bytes : Nat) {l : Level} : Phrase l → Phrase l
  | condition name colon body c hname hcolon hbody =>
    condition (name.shift bytes) (colon.shift bytes) (body.map (Token.shift bytes)) c hname hcolon
      (hbody.shift bytes)
  | negation sign operand hsign => negation (sign.shift bytes) (operand.shift bytes) hsign
  | group opening inner closing hopening hclosing =>
    group (opening.shift bytes) (inner.shift bytes) (closing.shift bytes) hopening hclosing
  | single c operand => single c (operand.shift bytes)
  | joined c left sign right hsign =>
    joined c (left.shift bytes) (sign.shift bytes) (right.shift bytes) hsign

/-- The tokens of a phrase that is moved are the moved ones. -/
theorem tokens_shift (bytes : Nat) (p : Phrase l) :
    (p.shift bytes).tokens = p.tokens.map (Token.shift bytes) := by
  induction p with
  | condition => rfl
  | negation _ _ _ ih => simp [shift, tokens, ih]
  | group _ _ _ _ _ ih => simp [shift, tokens, ih]
  | single _ _ ih => exact ih
  | joined _ _ _ _ _ ihl ihr => simp [shift, tokens, ihl, ihr]

@[simp] theorem query_shift (bytes : Nat) (p : Phrase l) : (p.shift bytes).query = p.query := by
  induction p with
  | condition => rfl
  | negation _ _ _ ih => simp [shift, query, ih]
  | group _ _ _ _ _ ih => exact ih
  | single _ _ ih => exact ih
  | joined _ _ _ _ _ ihl ihr => simp [shift, query, ihl, ihr]

@[simp] theorem leafDepths_shift (bytes : Nat) (p : Phrase l) :
    (p.shift bytes).leafDepths = p.leafDepths := by
  induction p with
  | condition => rfl
  | negation _ _ _ ih => simp [shift, leafDepths, ih]
  | group _ _ _ _ _ ih => simp [shift, leafDepths, ih]
  | single _ _ ih => exact ih
  | joined _ _ _ _ _ ihl ihr => simp [shift, leafDepths, ihl, ihr]

@[simp] theorem leafDepths_loosen {l' : Level} (h : l'.precedence ≤ l.precedence) (p : Phrase l) :
    (p.loosen l' h).leafDepths = p.leafDepths :=
  apply_loosen leafDepths (fun _ _ => rfl) h p

end Phrase

/-! ## Runs of characters that spell a query -/

/-- Wherever the characters stand, and whatever follows them at a seam, they are read as a phrase
of the query; `depths` counts the groups and negations around each of its conditions. -/
def Spells (l : Level) (cs : List Char) (q : Query) (depths : List Nat) : Prop :=
  ∀ offset, ∃ p : Phrase l, p.query = q ∧ p.leafDepths = depths ∧
    ∀ b, Seam b → lex offset (cs ++ b) = p.tokens ++ lex (offset + utf8Length cs) b

namespace Spells

variable {l : Level} {cs : List Char} {q : Query} {depths : List Nat}

/-- A text that spells a query at a level does so at any looser one. -/
theorem loosen (h : Spells l cs q depths) (l' : Level) (hl : l'.precedence ≤ l.precedence) :
    Spells l' cs q depths := by
  intro offset
  obtain ⟨p, hq, hdepths, hlex⟩ := h offset
  refine ⟨p.loosen l' hl, by rw [Phrase.query_loosen, hq], ?_, ?_⟩
  · rw [Phrase.leafDepths_loosen, hdepths]
  · intro b hb
    rw [Phrase.tokens_loosen, hlex b hb]

/-- Parentheses make a term of a whole query and put its conditions one level deeper. -/
theorem group (h : Spells .whole cs q depths) :
    Spells .term ('(' :: (cs ++ [')'])) q (depths.map (· + 1)) := by
  intro offset
  obtain ⟨p, hq, hdepths, hlex⟩ := h (offset + 1)
  let opening : Token := ⟨.leftParen, "(", offset⟩
  let closing : Token := ⟨.rightParen, ")", offset + 1 + utf8Length cs⟩
  refine ⟨.group opening p closing rfl rfl, hq, congrArg _ hdepths, ?_⟩
  intro b _
  have hseam : Seam (')' :: b) := seam_cons rfl b
  have htext : '(' :: (cs ++ [')']) ++ b = '(' :: (cs ++ ')' :: b) := by simp
  have hlen : offset + utf8Length ('(' :: (cs ++ [')'])) =
      offset + 1 + utf8Length cs + 1 := by
    have hopen : '('.utf8Size = 1 := rfl
    have hclose : ')'.utf8Size = 1 := rfl
    simp [hopen, hclose]
    omega
  rw [htext, lex_leftParen, hlex _ hseam, lex_rightParen, hlen]
  simp [Phrase.tokens, opening, closing]

/-- `NOT` in front of a term negates it and puts its conditions one level deeper. -/
theorem negation (h : Spells .term cs q depths) :
    Spells .term ("NOT ".toList ++ cs) (.not q) (depths.map (· + 1)) := by
  intro offset
  obtain ⟨p, hq, hdepths, hlex⟩ := h (offset + 4)
  refine ⟨.negation ⟨.not, "NOT", offset⟩ p rfl, congrArg _ hq, congrArg _ hdepths, ?_⟩
  intro b hb
  have hspace : EndsWord (' ' :: (cs ++ b)) := (seam_cons rfl _).endsWord
  have htext : "NOT ".toList ++ cs ++ b = "NOT".toList ++ ' ' :: (cs ++ b) := by simp
  have hlen : offset + utf8Length ("NOT ".toList ++ cs) = offset + 4 + utf8Length cs := by
    have hnot : utf8Length "NOT ".toList = 4 := by decide
    rw [utf8Length_append, hnot, Nat.add_assoc]
  rw [htext, lex_not hspace, lex_space, hlex b hb, hlen]
  rfl

/-- A connective between a chain and an operand makes a longer chain. -/
theorem joined {c : Connective} {as bs : List Char} {left right : Query} {ds es : List Nat}
    (hleft : Spells (.chain c) as left ds) (hright : Spells c.operandLevel bs right es) :
    Spells (.chain c) (as ++ ' ' :: (c.keyword.toList ++ ' ' :: bs)) (.join c left right)
      (ds ++ es) := by
  intro offset
  let place := offset + utf8Length as + 1
  obtain ⟨p, hp, hds, hlexp⟩ := hleft offset
  obtain ⟨r, hr, hes, hlexr⟩ := hright (place + utf8Length c.keyword.toList + 1)
  refine ⟨.joined c p ⟨.connective c, c.keyword, place⟩ r rfl, ?_, ?_, ?_⟩
  · simp [Phrase.query, hp, hr]
  · simp [Phrase.leafDepths, hds, hes]
  intro b hb
  have hseam : Seam (' ' :: (c.keyword.toList ++ ' ' :: (bs ++ b))) := seam_cons rfl _
  have hspace : EndsWord (' ' :: (bs ++ b)) := (seam_cons rfl _).endsWord
  have htext : as ++ ' ' :: (c.keyword.toList ++ ' ' :: bs) ++ b =
      as ++ ' ' :: (c.keyword.toList ++ ' ' :: (bs ++ b)) := by simp
  have hlen : offset + utf8Length (as ++ ' ' :: (c.keyword.toList ++ ' ' :: bs)) =
      place + utf8Length c.keyword.toList + 1 + utf8Length bs := by
    have hsize : ' '.utf8Size = 1 := rfl
    simp only [utf8Length_append, utf8Length_cons, hsize, place]
    omega
  rw [htext, hlexp _ hseam, lex_space, lex_connective c hspace, lex_space, hlexr b hb, hlen]
  simp [Phrase.tokens, place]

end Spells

/-! ## Whole texts -/

/-- The tokens of a text that is parsed to a query, the end of input apart, are those of a phrase
that spells it. -/
theorem exists_phrase_of_parse {maxDepth : Nat} {text : String} {q : Query}
    (h : Query.parse maxDepth text = .ok q) :
    ∃ p : Phrase .whole, p.query = q ∧ p.tokens = lexBody 0 text.toList := by
  unfold Query.parse at h
  rw [tokenize_eq_lex, lex_eq_lexBody_append] at h
  obtain ⟨p, rest, hq, htokens, hrest⟩ := Query.exists_phrase_of_ofTokens h
  refine ⟨p, hq, ?_⟩
  exact Query.eq_of_append_eq_append
    (fun t ht => Token.Kind.ne_endOfInput_of_isProper (p.isProper t ht))
    kind_ne_endOfInput_of_mem_lexBody hrest rfl htokens.symm

/-- A text that is parsed to a query spells it, wherever it stands. -/
theorem spells_of_parse {maxDepth : Nat} {text : String} {q : Query}
    (h : Query.parse maxDepth text = .ok q) :
    ∃ depths, Spells .whole text.toList q depths := by
  obtain ⟨p, hq, hbody⟩ := exists_phrase_of_parse h
  have hshift (offset : Nat) : lexBody offset text.toList = (p.shift offset).tokens := by
    rw [Phrase.tokens_shift, hbody, ← lexBody_add, Nat.zero_add]
  have hclosed : Closed text.toList := by
    refine @closed_of_known _ 0 fun t ht => ?_
    rw [← hbody] at ht
    exact Token.Kind.ne_unknown_of_isProper (p.isProper t ht)
  refine ⟨p.leafDepths, fun offset => ⟨p.shift offset, by simp [hq], by simp, ?_⟩⟩
  intro b hb
  rw [hclosed offset b hb, hshift]

/-- The tokens of a text that spells a query are those of a phrase, and the end of input. -/
theorem exists_tokenize_of_spells {text : String} {q : Query} {depths : List Nat}
    (h : Spells .whole text.toList q depths) :
    ∃ p : Phrase .whole, p.query = q ∧ p.leafDepths = depths ∧
      ∃ stop, tokenize text = p.tokens ++ [endAt stop] := by
  obtain ⟨p, hq, hdepths, hlex⟩ := h 0
  have htokens := hlex [] seam_nil
  rw [List.append_nil, lex_nil] at htokens
  exact ⟨p, hq, hdepths, _, htokens⟩

/-- A text whose tokens are those of a phrase is parsed to the query of the phrase if the depth
limit admits the nesting and the height; otherwise the limit is the reason why it is refused. -/
theorem parse_of_phrase (maxDepth : Nat) {text : String} {p : Phrase .whole} {stop : Nat}
    (h : tokenize text = p.tokens ++ [endAt stop]) :
    ((p.nesting ≤ min maxDepth 256 ∧ p.query.height ≤ min maxDepth 256) →
      Query.parse maxDepth text = .ok p.query) ∧
    (¬(p.nesting ≤ min maxDepth 256 ∧ p.query.height ≤ min maxDepth 256) →
      ∃ offset, Query.parse maxDepth text =
        .error (.nestingTooDeep (min maxDepth 256) offset)) := by
  have hend : Query.AtEnd [endAt stop] := by
    rintro t ⟨⟩
    rfl
  unfold Query.parse
  rw [h]
  exact ⟨fun hbound => Query.ofTokens_of_le p hend hbound.1 hbound.2,
    Query.ofTokens_of_not_le p hend⟩

/-- A text that spells a query is parsed to it if the depth limit admits the tree and the depth of
every condition; otherwise the limit is the reason why it is refused. -/
theorem parse_of_spells (maxDepth : Nat) {text : String} {q : Query} {depths : List Nat}
    (h : Spells .whole text.toList q depths) :
    ((q.height ≤ min maxDepth 256 ∧ ∀ n ∈ depths, n ≤ min maxDepth 256) →
      Query.parse maxDepth text = .ok q) ∧
    (¬(q.height ≤ min maxDepth 256 ∧ ∀ n ∈ depths, n ≤ min maxDepth 256) →
      ∃ offset, Query.parse maxDepth text =
        .error (.nestingTooDeep (min maxDepth 256) offset)) := by
  obtain ⟨p, rfl, rfl, stop, htokens⟩ := exists_tokenize_of_spells h
  rw [p.forall_leafDepths_le_iff, @and_comm (p.query.height ≤ _)]
  exact parse_of_phrase maxDepth htokens

/-- What is parsed keeps to the depth limit. -/
theorem bounds_of_parse {maxDepth : Nat} {text : String} {q : Query} {depths : List Nat}
    (h : Query.parse maxDepth text = .ok q) (hspells : Spells .whole text.toList q depths) :
    q.height ≤ min maxDepth 256 ∧ ∀ n ∈ depths, n ≤ min maxDepth 256 := by
  refine Classical.byContradiction fun hbound => ?_
  obtain ⟨offset, herror⟩ := (parse_of_spells maxDepth hspells).2 hbound
  rw [h] at herror
  cases herror

end FieldFilter
