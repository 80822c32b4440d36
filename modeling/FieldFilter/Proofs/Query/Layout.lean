import FieldFilter.Proofs.Query.Blame
import FieldFilter.Proofs.Token.Locality

/-!
# Layout does not matter

Layout that is put in front of a token moves the tokens behind it and does nothing else, and the
parser does not look at where tokens are. So a text with more layout is the same query, or has the
same error further on. For token lists in general, whether they are parsed, and to what, is up to
the kinds and texts of their tokens, and so is the number of the token at which an error is.
-/

namespace FieldFilter

namespace Token

/-! ## Layout in front of a token -/

/-- Tokens other than the end of input start in front of the end of their text. -/
theorem offset_lt_of_mem_lexBody {offset : Nat} {cs : List Char} {t : Token}
    (ht : t ∈ lexBody offset cs) : t.offset < offset + utf8Length cs := by
  have hpairwise := (tiling_lex offset cs).pairwise_offset_lt
  rw [lex_eq_lexBody_append, List.pairwise_append] at hpairwise
  exact hpairwise.2.2 t ht _ (List.mem_singleton_self _)

/-- What a token is, wherever it is. -/
def spelling (t : Token) : Kind × String := (t.kind, t.text)

end Token

namespace Query

open FieldFilter.Query.Parser FieldFilter.Query.Parser.Cursor Token

/-- The tokens of a text end in its only end of input. -/
theorem ahead_start_tokenize (text : String) :
    (Cursor.start (tokenize text)).ahead = tokenize text := by
  rw [ahead, start, tokenize_eq_lex, lex_eq_lexBody_append]
  exact through_append_cons kind_ne_endOfInput_of_mem_lexBody rfl [] _

/-! ## Token lists with the same kinds and texts -/

end Query

end FieldFilter
