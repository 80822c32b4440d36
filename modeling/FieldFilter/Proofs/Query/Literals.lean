import FieldFilter.Proofs.Query.CanonicalText
import FieldFilter.Proofs.Query.Lookahead
import FieldFilter.Proofs.Value.Meaning

/-!
# Numbers in conditions

A condition may hold numbers that no canonical text has: with zeros in front and behind, and with
more digits than a decimal has room for. Wherever such a numeral stands in a condition, it is one
token, and it is read as the number of all its digits or refused as a whole. Nothing else about the
condition is up to it.
-/

namespace FieldFilter

open Token

/-- The decimal of a numeral denotes the number of its digits, divided by ten for each place. -/
theorem Decimal.Numeral.toRat_decimal (n : Numeral) (h : n.Fits) :
    (n.decimal h).toRat = n.magnitude / 10 ^ n.scale := by
  simp [toRat, mantissa, decimal, tenPow]

/-! ## Literals -/

/-- A value as it is written in a condition. -/
inductive Literal where
  | numeral (n : Decimal.Numeral)
  | identifier (s : String) (hs : isName s = true)
  | boolean (b : Bool)

namespace Literal

/-- The text of a literal. -/
def text : Literal → String
  | numeral n => n.text
  | identifier s _ => s
  | boolean b => (Value.boolean b).toString

/-- The kind of the token of a literal. -/
def kind : Literal → Token.Kind
  | numeral _ => .number
  | identifier _ _ => .identifier
  | boolean _ => .boolean

/-- The token of a literal at a place. -/
def token (l : Literal) (offset : Nat) : Token := ⟨l.kind, l.text, offset⟩

/-- What a literal at a place is read as. -/
def read (offset : Nat) : Literal → Except SyntaxError Value
  | numeral n =>
    if h : n.Fits then .ok (.number (n.decimal h)) else .error (.invalidNumber n.text offset)
  | identifier s _ => .ok (.identifier s)
  | boolean b => .ok (.boolean b)

theorem isLexeme (l : Literal) : IsLexeme l.text.toList l.kind := by
  cases l with
  | numeral n =>
    rw [text, Decimal.Numeral.text, String.toList_ofList]
    exact n.isLexeme
  | identifier s hs => exact isLexeme_name hs
  | boolean b => exact Value.isLexeme (v := .boolean b) rfl

/-- A literal in front of its end is one token. -/
theorem lex_append (l : Literal) {b : List Char} (hb : EndsWord b) (offset : Nat) :
    lex offset (l.text.toList ++ b) =
      l.token offset :: lex (offset + l.text.utf8ByteSize) b := by
  rw [l.isLexeme.lex_append hb, String.ofList_toList, utf8Length_toList]
  rfl

end Literal

/-- A condition on a value as it is written, with the literals in it. -/
inductive Condition.Written where
  | equals (l : Literal)
  | within (lower upper : Literal)
  | compares (op : Comparison) (l : Literal)

namespace Condition.Written

/-- The text of a condition. -/
def text : Written → String
  | equals l => l.text
  | within lower upper => lower.text ++ ".." ++ upper.text
  | compares op l => op.symbol ++ l.text

/-- The tokens of a condition at a place. -/
def tokens (offset : Nat) : Written → List Token
  | equals l => [l.token offset]
  | within lower upper =>
    let place := offset + lower.text.utf8ByteSize
    [lower.token offset, ⟨.dots, "..", place⟩, upper.token (place + 2)]
  | compares op l =>
    [⟨.comparison op, op.symbol, offset⟩, l.token (offset + op.symbol.utf8ByteSize)]

/-- What a condition at a place is read as; the first literal that is refused decides. -/
def read (offset : Nat) : Written → Except SyntaxError Condition
  | equals l => (l.read offset).map .equals
  | within lower upper => do
    let low ← lower.read offset
    let high ← upper.read (offset + lower.text.utf8ByteSize + 2)
    .ok (.within ⟨low, high⟩)
  | compares op l => (l.read (offset + op.symbol.utf8ByteSize)).map (.compares op)

/-- A condition in front of the end of its last literal is read as its tokens. -/
theorem lex_append (w : Written) {b : List Char} (hb : EndsWord b) (offset : Nat) :
    lex offset (w.text.toList ++ b) =
      w.tokens offset ++ lex (offset + w.text.utf8ByteSize) b := by
  cases w with
  | equals l => exact l.lex_append hb offset
  | within lower upper =>
    have htext : (within lower upper).text.toList ++ b =
        lower.text.toList ++ '.' :: '.' :: (upper.text.toList ++ b) := by
      simp [text]
    have hsize : (within lower upper).text.utf8ByteSize =
        lower.text.utf8ByteSize + 2 + upper.text.utf8ByteSize := by
      have hdots : "..".utf8ByteSize = 2 := by decide
      rw [text, String.utf8ByteSize_append, String.utf8ByteSize_append, hdots]
    rw [htext, lower.lex_append (endsWord_dots _), lex_dots, upper.lex_append hb, hsize]
    simp only [tokens, List.cons_append, List.nil_append, Nat.add_assoc]
  | compares op l =>
    have htext : (compares op l).text.toList ++ b =
        op.symbol.toList ++ (l.text.toList ++ b) := by
      simp [text]
    have hsize : (compares op l).text.utf8ByteSize =
        op.symbol.utf8ByteSize + l.text.utf8ByteSize := by
      rw [text, String.utf8ByteSize_append]
    have hvalue := l.isLexeme.head?_append_ne (d := '=') rfl b
    rw [htext, lex_comparison op hvalue, utf8Length_toList, l.lex_append hb, hsize]
    simp only [tokens, List.cons_append, List.nil_append, Nat.add_assoc]

end Condition.Written

namespace Query

namespace Parser

/-! ## Reading literals -/

/-- A literal is read whatever follows it. -/
theorem value_token (l : Literal) (offset : Nat) (rest : List Token) (finish depth : Nat) :
    value ⟨l.token offset :: rest, finish, depth⟩ =
      (l.read offset).map fun v => (v, ⟨rest, finish, depth⟩) := by
  cases l with
  | numeral n =>
    rw [value_eq]
    by_cases h : n.Fits
    · simp [Cursor.current, Cursor.advance, Literal.token, Literal.kind, Literal.text,
        Literal.read, Token.value?, Decimal.readExact?_text, h, Except.map]
    · simp [Cursor.current, Literal.token, Literal.kind, Literal.text,
        Literal.read, Token.value?, Token.valueError, Decimal.readExact?_text, h, Except.map]
  | identifier s hs => rfl
  | boolean b => cases b <;> rfl

/-- A condition that starts with a literal is refused with it, or is an equality or a range. -/
theorem condition_token_cons (l : Literal) (offset : Nat) (rest : List Token)
    (finish depth : Nat) :
    condition ⟨l.token offset :: rest, finish, depth⟩ = (l.read offset).bind fun v =>
      let next : Cursor := ⟨rest, finish, depth⟩
      if next.current.kind = .dots then
        (value next.advance).map fun (upper, next) => (.within ⟨v, upper⟩, next)
      else .ok (.equals v, next) := by
  have hvalue := value_token l offset rest finish depth
  cases hread : l.read offset with
  | ok v =>
    rw [hread] at hvalue
    exact condition_of_value hvalue
  | error e =>
    rw [hread] at hvalue
    unfold condition
    -- the kind of the token takes the condition to its value
    cases l <;> exact congrArg (· >>= _) hvalue

/-- A condition is read as it is written, unless the dots of a range follow. -/
theorem condition_tokens (w : Condition.Written) (offset : Nat) {rest : List Token}
    {finish depth : Nat} (hrest : (Cursor.mk rest finish depth).current.kind ≠ .dots) :
    condition ⟨w.tokens offset ++ rest, finish, depth⟩ =
      (w.read offset).map fun c => (c, ⟨rest, finish, depth⟩) := by
  cases w with
  | equals l =>
    rw [Condition.Written.tokens, List.singleton_append, condition_token_cons,
      Condition.Written.read]
    cases l.read offset with
    | error e => rfl
    | ok v => exact if_neg hrest
  | within lower upper =>
    let place := offset + lower.text.utf8ByteSize
    have hupper := value_token upper (place + 2) rest finish depth
    simp only [Condition.Written.tokens, List.cons_append, List.nil_append]
    rw [condition_token_cons, Condition.Written.read]
    cases lower.read offset with
    | error e => rfl
    | ok low =>
      show Except.map _ (value ⟨upper.token (place + 2) :: rest, finish, depth⟩) = _
      rw [hupper]
      cases upper.read (place + 2) <;> rfl
  | compares op l =>
    let place := offset + op.symbol.utf8ByteSize
    have hvalue := value_token l place rest finish depth
    simp only [Condition.Written.tokens, List.cons_append, List.nil_append]
    rw [condition_of_comparison rfl]
    show Except.map _ (value ⟨l.token place :: rest, finish, depth⟩) = _
    rw [hvalue, Condition.Written.read]
    cases l.read place <;> rfl

end Parser

open FieldFilter.Query.Parser

/-! ## Queries of one condition -/

/-- A query of one condition succeeds and fails with the condition. -/
theorem ofTokens_of_condition {name colon : Token} {rest : List Token} {stop : Nat}
    {outcome : Except SyntaxError Condition} (hname : name.kind = .identifier)
    (hcolon : colon.kind = .colon)
    (h : ∀ finish, condition ⟨rest, finish, 0⟩ =
      outcome.map fun c => (c, ⟨[endAt stop], finish, 0⟩)) (maxDepth : Nat) :
    ofTokens maxDepth (name :: colon :: rest) = outcome.map (leaf name.text) := by
  let s := Cursor.start (name :: colon :: rest)
  have hs : s.current.kind = .identifier := hname
  have hterm : fieldTerm s =
      outcome.map fun c => (leaf name.text c, ⟨[endAt stop], s.finish, 0⟩) := by
    have hs' : s.advance.current.kind = .colon := hcolon
    have hcondition : condition s.advance.advance = _ := h s.finish
    rw [fieldTerm_of_colon hs', hcondition]
    cases outcome <;> rfl
  cases outcome with
  | error e => exact ofTokens_eq_of_run (.expressionFails (.conditionFails hs hterm))
  | ok c => exact ofTokens_eq_of_run (.expression (.condition hs hterm) (.stop nofun))

/-- The text of a field with a condition is read as the field and what the condition is read as. -/
theorem parse_written {field : String} (hfield : isName field = true) (w : Condition.Written)
    (maxDepth : Nat) :
    parse maxDepth (field ++ ":" ++ w.text) =
      (w.read (field.utf8ByteSize + 1)).map (leaf field) := by
  let place := field.utf8ByteSize
  have htext : (field ++ ":" ++ w.text).toList = field.toList ++ ':' :: w.text.toList := by simp
  have hseam : Seam (':' :: w.text.toList) := seam_cons rfl _
  have hlex := w.lex_append seam_nil.endsWord (place + 1)
  rw [List.append_nil, lex_nil] at hlex
  have htokens : tokenize (field ++ ":" ++ w.text) =
      ⟨.identifier, field, 0⟩ :: ⟨.colon, ":", place⟩ ::
        (w.tokens (place + 1) ++ [endAt (place + 1 + w.text.utf8ByteSize)]) := by
    rw [tokenize_eq_lex, htext, (isLexeme_name hfield).lex_append hseam.endsWord, lex_colon,
      String.ofList_toList, utf8Length_toList, Nat.zero_add, hlex]
  rw [parse, htokens]
  exact ofTokens_of_condition rfl rfl (fun _ => condition_tokens w _ nofun) maxDepth

/-- A numeral in a condition is one token, which is read as the number of all its digits, with all
its places, or refused as a whole at its place, if a decimal has no room for it. In an equality, on
either side of a range and behind a comparison sign this is all that it does. -/
theorem parse_numeral {field : String} (hfield : isName field = true) (maxDepth : Nat) :
    (∀ n : Decimal.Numeral,
      IsLexeme n.toList .number ∧
      (∀ h : n.Fits, (n.decimal h).toRat = n.magnitude / 10 ^ n.scale ∧
        parse maxDepth (field ++ ":" ++ n.text) =
          .ok (.leaf field (.equals (.number (n.decimal h))))) ∧
      (¬n.Fits → parse maxDepth (field ++ ":" ++ n.text) =
        .error (.invalidNumber n.text (field.utf8ByteSize + 1)))) ∧
    ∀ w : Condition.Written, parse maxDepth (field ++ ":" ++ w.text) =
      (w.read (field.utf8ByteSize + 1)).map (.leaf field) := by
  refine ⟨fun n => ⟨n.isLexeme, fun h => ⟨n.toRat_decimal h, ?_⟩, fun h => ?_⟩,
    fun w => parse_written hfield w maxDepth⟩
  all_goals
    refine (parse_written hfield (.equals (.numeral n)) maxDepth).trans ?_
    rw [Condition.Written.read, Literal.read]
  · rw [dif_pos h]
    rfl
  · rw [dif_neg h]
    rfl

/-- The numeral `01.50`. -/
def paddedNumeral : Decimal.Numeral where
  whole := ['0', '1']
  places := ['5', '0']

/-- The numeral of one unit in the place behind the last one of a decimal. -/
def tooFineNumeral : Decimal.Numeral where
  whole := ['0']
  places := List.replicate 28 '0' ++ ['1']

/-- A padded numeral keeps its places, and one with a place too many is refused where it stands,
here behind the nine bytes of `x:01.50..`. -/
theorem parse_numeral_padded :
    isName "x" = true ∧ paddedNumeral.Fits ∧ ¬tooFineNumeral.Fits ∧
    parse 5 "x:01.50" =
      .ok (.leaf "x" (.equals (.number ⟨false, 150, 2, by decide, by decide⟩))) ∧
    parse 5 "x:01.50..0.00000000000000000000000000001" =
      .error (.invalidNumber "0.00000000000000000000000000001" 9) := by
  have hname : isName "x" = true := by decide +kernel
  have hfits : paddedNumeral.Fits := by decide
  obtain ⟨hnumeral, hwritten⟩ := parse_numeral hname 5
  have hrange := hwritten (.within (.numeral paddedNumeral) (.numeral tooFineNumeral))
  exact ⟨hname, hfits, by decide, ((hnumeral paddedNumeral).2.1 hfits).2, hrange⟩

end Query

end FieldFilter
