import FieldFilter.Proofs.Query.Blame
import FieldFilter.Proofs.Query.Bookkeeping
import Mathlib.Algebra.Order.BigOperators.Group.List
import Mathlib.Algebra.Order.Group.Nat

/-!
# The end of input

A token list ends for the parser at its first end of input. The tokens behind it make no difference,
and the parser looks at it and never steps over it. If there is none, the parser acts as if one
stood behind the last token, at an offset that it computes with the arithmetic of the machine. Where
the sum does not fit into 64 bits, the offset starts over at zero, which shows in an error at the
end of input; a program with checked arithmetic stops instead, whether there is an end of input or
not.
-/

namespace FieldFilter.Query

open FieldFilter.Query.Parser

/-! ## Behind the last token -/

section Supplied

variable {tokens : List Token} (h : ∀ t ∈ tokens, t.kind ≠ .endOfInput)
include h

end Supplied

/-! ## What is stepped over -/

end FieldFilter.Query
