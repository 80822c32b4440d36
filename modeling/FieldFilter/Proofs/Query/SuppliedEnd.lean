import FieldFilter.Proofs.Query.EndOfInput
import FieldFilter.Proofs.Query.Layout

/-!
# The end of input that is supplied for a text

Without the end of input that closes them, the tokens of a text are parsed as if one stood behind
the text of the last token. In a text that does not end in layout this is the end of the text,
unless the last token is quoted: the closing quote belongs to the text but not to the text of the
token, and neither does the opening one, so that the supplied end of input stands two bytes early.
Nothing shows of this but the place of an error at the end of input.
-/

namespace FieldFilter

/-- An error that is moved is the same only if it stays where it is. -/
theorem SyntaxError.relocate_eq_self_iff {g : Nat → Nat} {e : SyntaxError} :
    e.relocate g = e ↔ g e.offset = e.offset := by
  cases e <;> simp [relocate, offset]

namespace Token

/-- A quoted token covers its quotes, one byte each. -/
theorem two_le_stop {t : Token} (h : t.kind = .quoted) : 2 ≤ t.stop := by
  have hquote : '"'.utf8Size = 1 := rfl
  rw [stop, span]
  simp [h, hquote]
  omega

/-- The text of a token leaves out the quotes that it covers. -/
theorem textEnd_eq (t : Token) :
    t.textEnd = (t.stop - if t.kind = .quoted then 2 else 0) % UInt64.size := by
  have hquote : '"'.utf8Size = 1 := rfl
  by_cases h : t.kind = .quoted
  · have hstop : t.stop - 2 = t.offset + t.text.utf8ByteSize := by
      rw [stop, span]
      simp [h, hquote, utf8Length_toList]
      omega
    rw [if_pos h, hstop, textEnd]
  · have hstop : t.stop - 0 = t.offset + t.text.utf8ByteSize := by
      rw [stop, span]
      simp [utf8Length_toList]
    rw [if_neg h, hstop, textEnd]

/-- The last token of a text that does not end in layout ends with the text. -/
theorem stop_getLast?_lexBody {offset : Nat} {cs : List Char}
    (hcs : ∀ c ∈ cs.getLast?, isLayout c = false) :
    ((lexBody offset cs).getLast?.map stop).getD offset = offset + utf8Length cs := by
  induction cs using lex_induction generalizing offset with
  | nil => simp
  | layout c cs hc ih =>
    have hne : cs ≠ [] := by
      rintro rfl
      have := hcs c rfl
      rw [hc] at this
      cases this
    rw [List.getLast?_cons_of_ne_nil hne] at hcs
    have hstop := @ih (offset + c.utf8Size) hcs
    rw [lexBody_layout hc, utf8Length_cons, ← Nat.add_assoc]
    -- there is a last token, because the text behind the layout is not empty
    cases hlast : (lexBody (offset + c.utf8Size) cs).getLast? with
    | none =>
      have hpos := utf8Length_pos hne
      rw [hlast] at hstop
      simp at hstop
      omega
    | some t =>
      rw [hlast] at hstop
      exact hstop
  | token c cs hc ih =>
    let t : Token := ⟨(munch c cs).kind, textOf (munch c cs).kind (munch c cs).span, offset⟩
    have hstop : t.stop = offset + utf8Length (munch c cs).span := by
      rw [stop, (cut_munch c cs).span_eq offset]
    have hrest : ∀ d ∈ (munch c cs).rest.getLast?, isLayout d = false := by
      intro d hd
      refine hcs d ?_
      rw [← munch_span_append_rest c cs, List.getLast?_append, hd]
      rfl
    have hlast : ((lexBody offset (c :: cs)).getLast?.map stop).getD offset =
        ((lexBody t.stop (munch c cs).rest).getLast?.map stop).getD t.stop := by
      rw [lexBody_token hc, List.getLast?_cons, hstop]
      cases (lexBody _ (munch c cs).rest).getLast? with
      | none => exact hstop
      | some u => rfl
    rw [hlast, ih hrest, hstop, Nat.add_assoc, utf8Length_munch]

end Token

namespace Query

open FieldFilter.Query.Parser Token

/-! ## Where the supplied end of input stands -/

/-- The last of some tokens is a quoted text. -/
def EndsQuoted (tokens : List Token) : Prop := ∃ t ∈ tokens.getLast?, t.kind = .quoted

/-- For the tokens of a text that does not end in layout, the end of input is supplied where the
text ends, or two bytes in front of that if the last token is quoted. -/
theorem finish_start_dropLast_tokenize {text : String}
    (htext : ∀ c ∈ text.toList.getLast?, isLayout c = false) :
    (¬EndsQuoted (tokenize text).dropLast →
      (Cursor.start (tokenize text).dropLast).finish = text.utf8ByteSize % UInt64.size) ∧
    (EndsQuoted (tokenize text).dropLast → 2 ≤ text.utf8ByteSize ∧
      (Cursor.start (tokenize text).dropLast).finish = (text.utf8ByteSize - 2) % UInt64.size) := by
  have hstop := @stop_getLast?_lexBody 0 text.toList htext
  have hbody : (tokenize text).dropLast = lexBody 0 text.toList := rfl
  rw [utf8Length_toList, Nat.zero_add] at hstop
  rw [← hstop, hbody, EndsQuoted, Cursor.start]
  cases (lexBody 0 text.toList).getLast? with
  | none => simp
  | some t =>
    have ht := t.textEnd_eq
    by_cases hquoted : t.kind = .quoted
    · simpa [hquoted, ht] using two_le_stop hquoted
    · simp [hquoted, ht]

/-! ## Parsing without the end of input -/

/-- The tokens of a text without their end of input are parsed as with it, except that an error at
the end of input shows where the end of input is supplied. -/
theorem ofTokens_dropLast_tokenize (maxDepth : Nat) (text : String) :
    ofTokens maxDepth (tokenize text).dropLast =
      relocated id (fun p => if p = text.utf8ByteSize then
        (Cursor.start (tokenize text).dropLast).finish else p) (parse maxDepth text) := by
  refine ofTokens_of_ahead_eq ?_ maxDepth
  let body := lexBody 0 text.toList
  let move (p : Nat) : Nat := if p = text.utf8ByteSize then (Cursor.start body).finish else p
  have hstays : ∀ t ∈ body, t.relocate move = id t := by
    intro t ht
    have hlt : t.offset < text.utf8ByteSize := by
      simpa [utf8Length_toList] using offset_lt_of_mem_lexBody ht
    rw [relocate]
    simp only [move, if_neg (Nat.ne_of_lt hlt)]
    rfl
  have hend : (endAt text.utf8ByteSize).relocate move = endAt (Cursor.start body).finish := by
    simp [relocate, endAt, move]
  have htokens : tokenize text = body ++ [endAt text.utf8ByteSize] := by
    rw [tokenize_eq_lex, lex_eq_lexBody_append, utf8Length_toList, Nat.zero_add]
  have hbody : (tokenize text).dropLast = body := rfl
  have hahead : (Cursor.start body).ahead = body ++ [endAt (Cursor.start body).finish] := by
    rw [← Cursor.through_stream _ 0]
    have hkind : (endAt (Cursor.start body).finish).kind = .endOfInput := rfl
    exact through_append_cons kind_ne_endOfInput_of_mem_lexBody hkind [] 0
  rw [ahead_start_tokenize, hbody, hahead, htokens, List.map_append,
    List.map_congr_left hstays, List.map_id, List.map_singleton, hend]

/-- Without its end of input, a text that does not end in layout is parsed as it is with it, unless
it has an error at the end of input and its last token is quoted; the error is then two bytes early.
The one other exception would be an error at the end of a text that is too long for offsets of 64
bits. -/
theorem ofTokens_dropLast_eq_parse_iff (maxDepth : Nat) {text : String}
    (htext : ∀ c ∈ text.toList.getLast?, c ∉ [' ', '\t', '\r', '\n']) :
    (ofTokens maxDepth (tokenize text).dropLast = parse maxDepth text ↔
      ¬((EndsQuoted (tokenize text).dropLast ∨ UInt64.size ≤ text.utf8ByteSize) ∧
        ∃ e, parse maxDepth text = .error e ∧ e.offset = text.utf8ByteSize)) ∧
    ∀ e, EndsQuoted (tokenize text).dropLast → parse maxDepth text = .error e →
      e.offset = text.utf8ByteSize →
        ofTokens maxDepth (tokenize text).dropLast =
          .error (e.relocate fun p => (p - 2) % UInt64.size) := by
  have hlayout : ∀ c ∈ text.toList.getLast?, isLayout c = false := fun c hc =>
    Bool.eq_false_iff.2 fun h => htext c hc (isLayout_iff.1 h)
  obtain ⟨hplain, hquoted⟩ := finish_start_dropLast_tokenize hlayout
  have hfinish : (Cursor.start (tokenize text).dropLast).finish = text.utf8ByteSize ↔
      ¬(EndsQuoted (tokenize text).dropLast ∨ UInt64.size ≤ text.utf8ByteSize) := by
    by_cases hends : EndsQuoted (tokenize text).dropLast
    · obtain ⟨hsize, hfinish⟩ := hquoted hends
      simp only [hfinish, hends, true_or, not_true, iff_false, UInt64.size]
      omega
    · simp only [hplain hends, hends, false_or, UInt64.size]
      omega
  rw [ofTokens_dropLast_tokenize]
  refine ⟨?_, fun e hends he hoffset => ?_⟩
  · cases hparse : parse maxDepth text with
    | ok q => simp [relocated]
    | error e =>
      rw [relocated, Except.error.injEq, SyntaxError.relocate_eq_self_iff]
      by_cases hoffset : e.offset = text.utf8ByteSize
      · simp [hoffset, hfinish]
      · simp [hoffset]
  · rw [he, relocated, Except.error.injEq]
    refine SyntaxError.relocate_congr ?_
    rw [if_pos hoffset, hoffset]
    exact (hquoted hends).2

/-- Behind the quoted text of `(a:"x"`, which ends at byte six, a closing parenthesis is missing. It
is missed there, but at byte four if the end of input is left out. Behind `(a:x` it is missed at
byte four in either case. -/
theorem ofTokens_dropLast_eq_parse_iff_openGroup :
    (∀ c ∈ "(a:\"x\"".toList.getLast?, c ∉ [' ', '\t', '\r', '\n']) ∧
    EndsQuoted (tokenize "(a:\"x\"").dropLast ∧
    parse 5 "(a:\"x\"" = .error (.unexpectedToken Parser.afterGroup "end of input" 6) ∧
    ofTokens 5 (tokenize "(a:\"x\"").dropLast =
      .error (.unexpectedToken Parser.afterGroup "end of input" 4) ∧
    (∀ c ∈ "(a:x".toList.getLast?, c ∉ [' ', '\t', '\r', '\n']) ∧
    ofTokens 5 (tokenize "(a:x").dropLast = parse 5 "(a:x" := by
  have hquoted : ∀ c ∈ "(a:\"x\"".toList.getLast?, c ∉ [' ', '\t', '\r', '\n'] := by simp
  have hplain : ∀ c ∈ "(a:x".toList.getLast?, c ∉ [' ', '\t', '\r', '\n'] := by simp
  have hends : EndsQuoted (tokenize "(a:\"x\"").dropLast :=
    ⟨⟨.quoted, "x", 3⟩, by decide +kernel, rfl⟩
  have hopen : ¬EndsQuoted (tokenize "(a:x").dropLast := by
    rintro ⟨t, ht, hkind⟩
    have hlast : (tokenize "(a:x").dropLast.getLast? = some ⟨.identifier, "x", 3⟩ := by
      decide +kernel
    rw [hlast] at ht
    cases ht
    cases hkind
  have herror : parse 5 "(a:\"x\"" =
      .error (.unexpectedToken Parser.afterGroup "end of input" 6) := by decide +kernel
  refine ⟨hquoted, hends, herror, ?_, hplain, ?_⟩
  · exact (ofTokens_dropLast_eq_parse_iff 5 hquoted).2 _ hends herror (by decide +kernel)
  · refine (ofTokens_dropLast_eq_parse_iff 5 hplain).1.2 fun h => ?_
    have hsize : ¬UInt64.size ≤ "(a:x".utf8ByteSize := by decide +kernel
    exact h.1.elim hopen hsize

/-- Not every text that does not end in layout is parsed alike with its end of input and without. -/
theorem not_ofTokens_dropLast_eq_parse :
    ¬∀ text : String, (∀ c ∈ text.toList.getLast?, c ∉ [' ', '\t', '\r', '\n']) →
      ofTokens defaultMaxDepth (tokenize text).dropLast = parse defaultMaxDepth text := by
  intro h
  have hsame := h "(a:\"x\"" (by simp)
  have hdiffers : ofTokens defaultMaxDepth (tokenize "(a:\"x\"").dropLast ≠
      parse defaultMaxDepth "(a:\"x\"" := by decide +kernel
  exact hdiffers hsame

end Query

end FieldFilter
