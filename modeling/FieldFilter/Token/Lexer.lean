import FieldFilter.Token

/-!
# From text to tokens

A lexer stands at a place in a query and hands out one token at a time, ending with a single
end-of-input token. It never fails: a stretch that belongs to no class becomes a token of kind
`unknown`. `munch` decides, at a character that is not layout, how far the next token reaches;
`munch_span_append_rest` says that it only cuts the text, and `span_munch_ne_nil` that it always
moves on.
-/

namespace FieldFilter

namespace Token

/-- The characters between tokens: space, tab, carriage return and line feed. -/
def isLayout (c : Char) : Bool := c == ' ' || c == '\t' || c == '\r' || c == '\n'

/-- The characters that may start a word. -/
def isWordStart (c : Char) : Bool := c.isAlpha || c == '_'

/-- The characters that may continue a word. -/
def isWordPart (c : Char) : Bool := c.isAlphanum || c == '_'

/-- The kind of a whole word: a keyword, a truth value, or an identifier. -/
def wordKind : List Char → Kind
  | ['O', 'R'] => .connective .or
  | ['A', 'N', 'D'] => .connective .and
  | ['N', 'O', 'T'] => .not
  | ['t', 'r', 'u', 'e'] => .boolean
  | ['f', 'a', 'l', 's', 'e'] => .boolean
  | _ => .identifier

/-- A text cut after its first token. -/
structure Munch where
  kind : Kind
  /-- The characters of the token, quotes included. -/
  span : List Char
  /-- The characters after the token. -/
  rest : List Char
  deriving DecidableEq, Repr

/-- Cut after a word. -/
def munchWord (cs : List Char) : Munch :=
  ⟨wordKind (cs.takeWhile isWordPart), cs.takeWhile isWordPart, cs.dropWhile isWordPart⟩

/-- The fraction at the head of a text: a point and the digits after it, if there are any. -/
def fraction : List Char → List Char
  | '.' :: cs => if cs.takeWhile Char.isDigit = [] then [] else '.' :: cs.takeWhile Char.isDigit
  | _ => []

/-- Cut after a number: digits, and a fraction if a digit follows its point. -/
def munchNumber (cs : List Char) : Munch :=
  let tail := cs.dropWhile Char.isDigit
  ⟨.number, cs.takeWhile Char.isDigit ++ fraction tail, tail.drop (fraction tail).length⟩

/-- Cut after a quoted text, given what follows its opening quote. Without a closing quote the
whole text is unknown. -/
def munchQuoted (cs : List Char) : Munch :=
  match cs.dropWhile (· != '"') with
  | [] => ⟨.unknown, '"' :: cs, []⟩
  | close :: rest => ⟨.quoted, '"' :: cs.takeWhile (· != '"') ++ [close], rest⟩

/-- Cut a text after its first token, given that it starts with `c`, which is not layout. -/
def munch (c : Char) (cs : List Char) : Munch :=
  match c, cs with
  | ':', cs => ⟨.colon, [c], cs⟩
  | '(', cs => ⟨.leftParen, [c], cs⟩
  | ')', cs => ⟨.rightParen, [c], cs⟩
  | '.', '.' :: cs => ⟨.dots, [c, '.'], cs⟩
  | '>', '=' :: cs => ⟨.comparison .atLeast, [c, '='], cs⟩
  | '<', '=' :: cs => ⟨.comparison .atMost, [c, '='], cs⟩
  | '>', cs => ⟨.comparison .above, [c], cs⟩
  | '<', cs => ⟨.comparison .below, [c], cs⟩
  | '"', cs => munchQuoted cs
  | c, cs =>
    if isWordStart c then munchWord (c :: cs)
    else if c.isDigit then munchNumber (c :: cs)
    else ⟨.unknown, [c], cs⟩

/-- The text of a token, given its kind and its span: quotes do not belong to the text. -/
def textOf : Kind → List Char → String
  | .quoted, span => String.ofList (span.drop 1).dropLast
  | _, span => String.ofList span

end Token

/-- A place in a query from which tokens are taken. -/
structure Lexer where
  /-- The characters not yet read. -/
  rest : List Char
  /-- The bytes read so far. -/
  offset : Nat
  /-- Whether the end-of-input token has been handed out. -/
  finished : Bool
  deriving DecidableEq, Repr

namespace Lexer

open Token

/-- The lexer at the start of a query. -/
def ofString (query : String) : Lexer := ⟨query.toList, 0, false⟩

/-- The lexer past the layout in front of it. -/
def skipLayout (l : Lexer) : Lexer :=
  { l with
    rest := l.rest.dropWhile isLayout
    offset := l.offset + utf8Length (l.rest.takeWhile isLayout) }

/-- The next token and the lexer after it; nothing once the end of input has been handed out. -/
def next? (l : Lexer) : Option (Token × Lexer) :=
  if l.finished then none
  else
    let start := l.skipLayout
    match start.rest with
    | [] => some (endAt start.offset, { start with finished := true })
    | c :: cs =>
      let m := munch c cs
      some (⟨m.kind, textOf m.kind m.span, start.offset⟩,
        ⟨m.rest, start.offset + utf8Length m.span, false⟩)

end Lexer

namespace Token

/-! ## A cut loses nothing and takes something -/

/-- A word and what is left of a text make up the text. -/
theorem munchWord_span_append_rest (cs : List Char) :
    (munchWord cs).span ++ (munchWord cs).rest = cs :=
  List.takeWhile_append_dropWhile

theorem fraction_append_drop (cs : List Char) :
    fraction cs ++ cs.drop (fraction cs).length = cs := by
  unfold fraction
  split
  · rename_i cs
    split
    · rfl
    · have h := List.takeWhile_append_dropWhile (p := Char.isDigit) (l := cs)
      have hd : cs.drop (cs.takeWhile Char.isDigit).length = cs.dropWhile Char.isDigit := by
        conv => lhs; arg 2; rw [← h]
        exact List.drop_left
      rw [List.length_cons, List.drop_succ_cons, hd, List.cons_append, h]
  · rfl

/-- A number and what is left of a text make up the text. -/
theorem munchNumber_span_append_rest (cs : List Char) :
    (munchNumber cs).span ++ (munchNumber cs).rest = cs := by
  unfold munchNumber
  rw [List.append_assoc, fraction_append_drop, List.takeWhile_append_dropWhile]

/-- A quoted text and what is left of a text make up the text. -/
theorem munchQuoted_span_append_rest (cs : List Char) :
    (munchQuoted cs).span ++ (munchQuoted cs).rest = '"' :: cs := by
  unfold munchQuoted
  have h := List.takeWhile_append_dropWhile (p := fun c => c != '"') (l := cs)
  split
  · simp
  · rename_i close rest he
    rw [he] at h
    simp [h]

/-- The token and what follows it make up the text. -/
theorem munch_span_append_rest (c : Char) (cs : List Char) :
    (munch c cs).span ++ (munch c cs).rest = c :: cs := by
  unfold munch
  split <;> try rfl
  · exact munchQuoted_span_append_rest _
  · split
    · exact munchWord_span_append_rest _
    · split
      · exact munchNumber_span_append_rest _
      · rfl

/-- A token covers at least one character. -/
theorem span_munch_ne_nil (c : Char) (cs : List Char) : (munch c cs).span ≠ [] := by
  unfold munch
  split <;> try exact List.cons_ne_nil _ _
  · unfold munchQuoted
    split <;> simp
  · split
    · rename_i h
      have hp : isWordPart c = true := by
        simp only [isWordStart, isWordPart, Char.isAlphanum, Bool.or_eq_true] at h ⊢
        rcases h with h | h
        · exact .inl (.inl h)
        · exact .inr h
      simp [munchWord, hp]
    · split
      · rename_i h
        simp [munchNumber, h]
      · simp

/-- What follows a token is shorter than the text that starts with it. -/
theorem length_rest_munch_lt (c : Char) (cs : List Char) :
    (munch c cs).rest.length < (c :: cs).length := by
  have h := congrArg List.length (munch_span_append_rest c cs)
  have hp := List.length_pos_iff.2 (span_munch_ne_nil c cs)
  rw [List.length_append] at h
  omega

end Token

namespace Lexer

/-- The number of characters left, and one for the end of input while it is still to come. -/
def remaining (l : Lexer) : Nat := if l.finished then 0 else l.rest.length + 1

/-- Each token brings the lexer closer to its end. -/
theorem remaining_lt_of_next? {l l' : Lexer} {t : Token} (h : l.next? = some (t, l')) :
    l'.remaining < l.remaining := by
  unfold next? at h
  split at h
  · cases h
  · rename_i hf
    simp only at h
    split at h
    · cases h
      simp [remaining, hf]
    · rename_i c cs he
      cases h
      have hm := Token.length_rest_munch_lt c cs
      have hd := (List.dropWhile_sublist (l := l.rest) Token.isLayout).length_le
      rw [show l.rest.dropWhile Token.isLayout = c :: cs from he] at hd
      simp [remaining, hf]
      omega

/-- The tokens still to come. -/
def tokens (l : Lexer) : List Token :=
  match _h : l.next? with
  | none => []
  | some (t, l') => t :: l'.tokens
termination_by l.remaining
decreasing_by exact remaining_lt_of_next? _h

end Lexer

/-- The tokens of a query, the last of which is its end of input. -/
def tokenize (query : String) : List Token := (Lexer.ofString query).tokens

end FieldFilter
