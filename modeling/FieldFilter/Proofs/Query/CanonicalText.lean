import FieldFilter.Proofs.Decimal.Numerals
import FieldFilter.Proofs.Query.Spelling
import FieldFilter.Query.Printer

/-!
# Canonical text is parsed back

Of the queries that a program can build, some have no text of their own: a name may be no name, a
number may have a minus sign, quoted text may hold a quote. All others are spellable, and their
canonical text is parsed back to them, as far as the depth limit goes.

The proof follows the query. The text of each part spells the part at the level of its top
connective, and parentheses stand where a part is looser than its place in the grammar.
-/

namespace FieldFilter

open Token

/-! ## Spellable queries -/

/-- The words that cannot be names: keywords and truth values. -/
def reservedWords : List String := ["OR", "AND", "NOT", "true", "false"]

/-- Whether a text is a word of the language that is not reserved. -/
def isName (s : String) : Bool :=
  match s.toList with
  | [] => false
  | c :: cs => isWordStart c && cs.all isWordPart && !reservedWords.contains s

/-- Whether a value can be written in a condition: quoted text has a place of its own. -/
def Value.isSpellable : Value → Bool
  | identifier s => isName s
  | number d => !d.negative
  | boolean _ => true
  | quoted _ => false

/-- Whether a condition can be written. -/
def Condition.isSpellable : Condition → Bool
  | equals v => v.isSpellable
  | within r => r.lower.isSpellable && r.upper.isSpellable
  | quoted t => !t.toList.contains '"'
  | compares _ v => v.isSpellable

namespace Query

/-- Whether a query can be written. -/
def isSpellable : Query → Bool
  | leaf field condition => isName field && condition.isSpellable
  | join _ left right => left.isSpellable && right.isSpellable
  | not operand => operand.isSpellable

/-- Numbers of openings, with one more each if there are parentheses around them. -/
def deepenIf (needed : Bool) (depths : List Nat) : List Nat :=
  if needed then depths.map (· + 1) else depths

/-- For each condition, the parentheses and negations that the canonical text opens around it. -/
def openings : Query → List Nat
  | leaf _ _ => [0]
  | join c left right =>
    deepenIf (left.precedence < c.precedence) left.openings
      ++ deepenIf (right.precedence < c.precedence + 1) right.openings
  | not operand => (deepenIf (operand.precedence < 3) operand.openings).map (· + 1)

/-- The level of the grammar at which the top of a query stands without parentheses. -/
def level : Query → Level
  | join c _ _ => .chain c
  | leaf .. | not _ => .term

@[simp] theorem precedence_level (q : Query) : q.level.precedence = q.precedence := by
  cases q <;> rfl

/-- No query is looser than a whole query may be. -/
theorem not_precedence_lt_whole (q : Query) : ¬q.precedence < Level.whole.precedence := by
  rw [← q.precedence_level]
  exact Nat.not_lt_of_le q.level.whole_le

/-- A whole query asks for no parentheses around it. -/
theorem deepenIf_whole (q : Query) (depths : List Nat) :
    deepenIf (q.precedence < Level.whole.precedence) depths = depths := by
  rw [decide_eq_false q.not_precedence_lt_whole]
  rfl

end Query

/-! ## Texts of values -/

/-- A word that is not reserved is an identifier. -/
theorem wordKind_of_not_reserved {s : String} (h : s ∉ reservedWords) :
    wordKind s.toList = .identifier := by
  have hne (cs : List Char) (hcs : String.ofList cs ∈ reservedWords) : s.toList ≠ cs := by
    rintro rfl
    rw [String.ofList_toList] at hcs
    exact h hcs
  unfold wordKind
  split
  · exact absurd ‹_› (hne _ (by decide))
  · exact absurd ‹_› (hne _ (by decide))
  · exact absurd ‹_› (hne _ (by decide))
  · exact absurd ‹_› (hne _ (by decide))
  · exact absurd ‹_› (hne _ (by decide))
  · rfl

/-- A name is one identifier. -/
theorem isLexeme_name {s : String} (hs : isName s = true) : IsLexeme s.toList .identifier := by
  unfold isName at hs
  split at hs
  · cases hs
  · rename_i c cs hcons
    simp only [Bool.and_eq_true, Bool.not_eq_true', List.contains_eq_mem,
      decide_eq_false_iff_not] at hs
    obtain ⟨⟨hc, hcs⟩, hreserved⟩ := hs
    have hkind := wordKind_of_not_reserved hreserved
    rw [hcons] at hkind ⊢
    rw [← hkind]
    exact isLexeme_word hc hcs

/-- A numeral is one token, its point included. -/
theorem Decimal.Numeral.isLexeme (n : Numeral) : IsLexeme n.toList .number := by
  have hmunch : munchNumber n.toList = ⟨.number, n.toList, []⟩ := by
    unfold Numeral.toList Numeral.fraction
    split
    · rw [List.append_nil]
      exact munchNumber_whole n.isDigit_whole
    · exact munchNumber_point n.isDigit_whole n.isDigit_places ‹_›
  obtain ⟨c, cs, htext, hc⟩ := n.exists_toList_eq_cons
  rw [htext] at hmunch ⊢
  exact isLexeme_number hc hmunch

/-- The kind of the token that spells a value. -/
def Value.tokenKind : Value → Token.Kind
  | identifier _ => .identifier
  | number _ => .number
  | boolean _ => .boolean
  | quoted _ => .quoted

/-- The text of a spellable value is one token. -/
theorem Value.isLexeme {v : Value} (hv : v.isSpellable = true) :
    IsLexeme v.toString.toList v.tokenKind := by
  cases v with
  | identifier s => exact isLexeme_name hv
  | number d =>
    have hd : d.negative = false := by simpa [isSpellable] using hv
    rw [toString, Decimal.toString, String.toList_ofList, Decimal.toList, hd,
      if_neg Bool.false_ne_true, ← d.toList_numeral]
    exact d.numeral.isLexeme
  | boolean value =>
    cases value with
    | true => exact @isLexeme_word 't' ['r', 'u', 'e'] rfl rfl
    | false => exact @isLexeme_word 'f' ['a', 'l', 's', 'e'] rfl rfl
  | quoted => cases hv

/-- The token of a spellable value spells the value. -/
theorem Value.value?_token {v : Value} (hv : v.isSpellable = true) (offset : Nat) :
    (Token.mk v.tokenKind v.toString offset).value? = some v := by
  cases v with
  | identifier s => rfl
  | number d =>
    have hd : d.negative = false := by simpa [isSpellable] using hv
    simp [value?, tokenKind, toString, Decimal.readExact?_toString hd]
  | boolean value => cases value <;> rfl
  | quoted => cases hv

/-- The text of a spellable value in front of its end. -/
theorem lex_value {v : Value} (hv : v.isSpellable = true) {b : List Char} (hb : EndsWord b)
    (offset : Nat) :
    lex offset (v.toString.toList ++ b) =
      ⟨v.tokenKind, v.toString, offset⟩ :: lex (offset + utf8Length v.toString.toList) b := by
  rw [(v.isLexeme hv).lex_append hb, String.ofList_toList]

/-! ## Texts of conditions -/

/-- What stands behind the lower bound of a range ends it. -/
theorem endsWord_dots (cs : List Char) : EndsWord ('.' :: '.' :: cs) := by
  constructor
  · rintro c ⟨⟩
    rfl
  · rfl

/-- The text of a spellable condition in front of a seam is read as tokens that spell it. -/
theorem exists_lex_condition {c : Condition} (hc : c.isSpellable = true) (offset : Nat) :
    ∃ body, c.SpelledBy body ∧ ∀ b, Seam b →
      lex offset (c.toString.toList ++ b) =
        body ++ lex (offset + utf8Length c.toString.toList) b := by
  cases c with
  | equals v =>
    refine ⟨_, .equals (v.value?_token hc offset), fun b hb => ?_⟩
    exact lex_value hc hb.endsWord offset
  | within r =>
    rw [Condition.isSpellable, Bool.and_eq_true] at hc
    let place := offset + utf8Length r.lower.toString.toList
    let dots : Token := ⟨.dots, "..", place⟩
    have hdots : dots.kind = .dots := rfl
    refine ⟨_, .within (r.lower.value?_token hc.1 offset) hdots
      (r.upper.value?_token hc.2 (place + 2)), fun b hb => ?_⟩
    have htext : (Condition.within r).toString.toList ++ b =
        r.lower.toString.toList ++ '.' :: '.' :: (r.upper.toString.toList ++ b) := by
      simp [Condition.toString, Range.toString]
    have hlen : offset + utf8Length (Condition.within r).toString.toList =
        place + 2 + utf8Length r.upper.toString.toList := by
      have hsize : utf8Length "..".toList = 2 := by decide
      simp only [Condition.toString, Range.toString, String.toList_append, utf8Length_append,
        hsize, place]
      omega
    rw [htext, lex_value hc.1 (endsWord_dots _), lex_dots, lex_value hc.2 hb.endsWord, hlen]
    rfl
  | quoted t =>
    have ht : '"' ∉ t.toList := by simpa [Condition.isSpellable] using hc
    refine ⟨_, .quoted (t := ⟨.quoted, t, offset⟩) rfl, fun b _ => ?_⟩
    have htext : (Condition.quoted t).toString.toList = '"' :: t.toList ++ ['"'] := by
      simp [Condition.toString]
    have happend : '"' :: t.toList ++ ['"'] ++ b = '"' :: (t.toList ++ '"' :: b) := by simp
    rw [htext, happend, lex_quoted ht, String.ofList_toList]
    rfl
  | compares op v =>
    let place := offset + utf8Length op.symbol.toList
    let sign : Token := ⟨.comparison op, op.symbol, offset⟩
    have hsign : sign.kind = .comparison op := rfl
    refine ⟨_, .compares hsign (v.value?_token hc place), fun b hb => ?_⟩
    have htext : (Condition.compares op v).toString.toList ++ b =
        op.symbol.toList ++ (v.toString.toList ++ b) := by
      simp [Condition.toString]
    have hlen : offset + utf8Length (Condition.compares op v).toString.toList =
        place + utf8Length v.toString.toList := by
      simp only [Condition.toString, String.toList_append, utf8Length_append, place]
      omega
    have hvalue := (v.isLexeme hc).head?_append_ne (d := '=') rfl b
    rw [htext, lex_comparison op hvalue, lex_value hc hb.endsWord, hlen]
    rfl

namespace Query

/-! ## Texts of queries -/

/-- The text of a spellable condition with its field spells the condition. -/
theorem spells_leaf {field : String} {c : Condition} (hfield : isName field = true)
    (hc : c.isSpellable = true) :
    Spells .term (leaf field c).toString.toList (leaf field c) [0] := by
  intro offset
  let place := offset + utf8Length field.toList
  obtain ⟨body, hbody, hlex⟩ := exists_lex_condition hc (place + 1)
  refine ⟨.condition ⟨.identifier, field, offset⟩ ⟨.colon, ":", place⟩ body c rfl rfl hbody,
    rfl, rfl, fun b hb => ?_⟩
  have htext : (leaf field c).toString.toList ++ b =
      field.toList ++ ':' :: (c.toString.toList ++ b) := by
    simp [toString]
  have hlen : offset + utf8Length (leaf field c).toString.toList =
      place + 1 + utf8Length c.toString.toList := by
    have hcolon : utf8Length ":".toList = 1 := by decide
    simp only [toString, String.toList_append, utf8Length_append, hcolon, place]
    omega
  have hseam : Seam (':' :: (c.toString.toList ++ b)) := seam_cons rfl _
  rw [htext, (isLexeme_name hfield).lex_append hseam.endsWord, lex_colon, hlex b hb, hlen,
    String.ofList_toList]
  rfl

/-- A text with the parentheses that its place asks for can stand in that place. -/
theorem spells_parenthesizeIf {q : Query} {text : String} {depths : List Nat}
    (h : Spells q.level text.toList q depths) (l : Level) {n : Nat} (hn : l.precedence = n) :
    Spells l (parenthesizeIf (q.precedence < n) text).toList q
      (deepenIf (q.precedence < n) depths) := by
  subst hn
  by_cases hloose : q.precedence < l.precedence
  · have hterm : l.precedence ≤ Level.term.precedence := by
      cases l with
      | chain c => exact Nat.le_succ_of_le c.precedence_le
      | term => exact Nat.le_refl _
    have hgroup := (h.loosen .whole (Level.whole_le _)).group.loosen l hterm
    simpa [parenthesizeIf, deepenIf, hloose] using hgroup
  · have hlevel : l.precedence ≤ q.level.precedence := by
      rw [q.precedence_level]
      omega
    simpa [parenthesizeIf, deepenIf, hloose] using h.loosen l hlevel

/-- The canonical text of a spellable query spells the query at the level of its top. -/
theorem spells_toString {q : Query} (hq : q.isSpellable = true) :
    Spells q.level q.toString.toList q q.openings := by
  induction q with
  | leaf field c =>
    rw [isSpellable, Bool.and_eq_true] at hq
    exact spells_leaf hq.1 hq.2
  | join c left right ihl ihr =>
    rw [isSpellable, Bool.and_eq_true] at hq
    have hleft := spells_parenthesizeIf (ihl hq.1) (.chain c) rfl
    have hright := spells_parenthesizeIf (ihr hq.2) c.operandLevel c.precedence_operandLevel
    let leftText := parenthesizeIf (left.precedence < c.precedence) left.toString
    let rightText := parenthesizeIf (right.precedence < c.precedence + 1) right.toString
    have htext : (join c left right).toString.toList =
        leftText.toList ++ ' ' :: (c.keyword.toList ++ ' ' :: rightText.toList) := by
      simp [toString, leftText, rightText]
    rw [htext]
    exact hleft.joined hright
  | not operand ih =>
    rw [toString, String.toList_append]
    exact (spells_parenthesizeIf (ih hq) .term rfl).negation

/-- The canonical text of a spellable query is parsed back to the query if the limit admits its
height and the parentheses and negations that the text opens around its conditions; otherwise the
text is refused because of that limit. -/
theorem parse_toString {q : Query} (hq : q.isSpellable = true) (maxDepth : Nat) :
    ((q.height ≤ min maxDepth 256 ∧ ∀ n ∈ q.openings, n ≤ min maxDepth 256) →
      parse maxDepth q.toString = .ok q) ∧
    (¬(q.height ≤ min maxDepth 256 ∧ ∀ n ∈ q.openings, n ≤ min maxDepth 256) →
      ∃ offset, parse maxDepth q.toString = .error (.nestingTooDeep (min maxDepth 256) offset)) :=
  parse_of_spells maxDepth ((spells_toString hq).loosen .whole (Level.whole_le _))

/-- The query of `NOT (a:x OR b:>=1.50)`. -/
def negatedPair : Query :=
  .not (.join .or (.leaf "a" (.equals (.identifier "x")))
    (.leaf "b" (.compares .atLeast (.number ⟨false, 150, 2, by decide, by decide⟩))))

/-- A pair in a negated group needs a limit of two. -/
theorem parse_toString_negatedPair :
    negatedPair.isSpellable = true ∧ parse 2 negatedPair.toString = .ok negatedPair ∧
    ∃ offset, parse 1 negatedPair.toString = .error (.nestingTooDeep 1 offset) := by
  have hq : negatedPair.isSpellable = true := rfl
  exact ⟨hq, (parse_toString hq 2).1 (by decide), (parse_toString hq 1).2 (by decide)⟩

end Query

end FieldFilter
