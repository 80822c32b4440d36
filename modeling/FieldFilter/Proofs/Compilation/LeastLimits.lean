import FieldFilter.Configuration
import FieldFilter.Proofs.Compilation.Outcome
import FieldFilter.Proofs.Token.Tiling

/-!
# Limits that refuse every query

The shortest queries take three bytes, for a name, a colon and a value, and a single condition has
no depth. So limits refuse every text that is not blank exactly if they allow fewer than three
bytes, whatever the depth that they allow. Validating a configuration is meant to find such limits,
but looks for zeros: it lets one and two bytes pass, and refuses a depth of zero.
-/

namespace FieldFilter

open Token

/-! ## The shortest queries -/

/-- A text that is parsed has at least three bytes. -/
theorem Query.three_le_utf8ByteSize_of_parse {maxDepth : Nat} {text : String} {q : Query}
    (h : parse maxDepth text = .ok q) : 3 ≤ text.utf8ByteSize := by
  obtain ⟨p, -, hbody⟩ := exists_phrase_of_parse h
  have htokens := p.three_le_length_tokens
  have htiling := (tiling_lex 0 text.toList).length_le
  have hbytes := length_le_utf8Length text.toList
  rw [lex_eq_lexBody_append, ← hbody, List.length_append, List.length_singleton] at htiling
  rw [utf8Length_toList] at hbytes
  omega

/-- Three bytes are enough, at any depth. -/
theorem compile_shortest {limits : Limits} (h : 3 ≤ limits.maxQueryLength) :
    compile limits textSchema "a:x" = .ok (nameCheck "x") := by
  have hopenings : ∀ n ∈ (Query.leaf "a" (.equals (.identifier "x"))).openings,
      n ≤ min limits.maxDepth 256 := by
    intro n hn
    rw [List.mem_singleton.1 hn]
    exact Nat.zero_le _
  exact @compile_toString limits textSchema (.leaf "a" (.equals (.identifier "x"))) rfl _ rfl h
    (Nat.zero_le _) hopenings

/-! ## Limits and queries -/

/-- Some text that is not blank compiles under the limits, against some schema. -/
def Limits.Admit (limits : Limits) : Prop :=
  ∃ schema text p, isBlank text = false ∧ compile limits schema text = .ok p

/-- Limits admit a query exactly if they allow three bytes. -/
theorem Limits.admit_iff (limits : Limits) : limits.Admit ↔ 3 ≤ limits.maxQueryLength := by
  constructor
  · rintro ⟨schema, text, p, hblank, h⟩
    obtain ⟨hlength, q, hq, -⟩ := (compile_eq_ok_iff hblank).1 h
    exact (Query.three_le_utf8ByteSize_of_parse hq).trans hlength
  · intro h
    exact ⟨textSchema, "a:x", _, by decide, compile_shortest h⟩

namespace Configuration

/-- A configuration is refused exactly if one of its limits is zero. -/
theorem exists_validate_eq_error_iff (c : Configuration) :
    (∃ e, c.validate = .error e) ↔ c.limits.maxQueryLength = 0 ∨ c.limits.maxDepth = 0 := by
  unfold validate
  split
  · rename_i hlength
    exact iff_of_true ⟨_, rfl⟩ (.inl hlength)
  · rename_i hlength
    split
    · rename_i hdepth
      exact iff_of_true ⟨_, rfl⟩ (.inr hdepth)
    · rename_i hdepth
      exact iff_of_false nofun (not_or.2 ⟨hlength, hdepth⟩)

/-- A configuration is refused exactly if one of its limits is zero, and its limits admit a query
exactly if they allow three bytes. So those are refused that admit no query, but for two cases:
limits of one or two bytes admit none and are accepted, unless the depth is zero, and with a depth
of zero limits of three bytes or more admit some and are refused. -/
theorem validate_error_iff_not_admit_iff (c : Configuration) :
    ((∃ e, c.validate = .error e) ↔ c.limits.maxQueryLength = 0 ∨ c.limits.maxDepth = 0) ∧
    (c.limits.Admit ↔ 3 ≤ c.limits.maxQueryLength) ∧
    (((∃ e, c.validate = .error e) ↔ ¬c.limits.Admit) ↔
      ¬((c.limits.maxQueryLength = 1 ∨ c.limits.maxQueryLength = 2) ∧ 0 < c.limits.maxDepth) ∧
      ¬(3 ≤ c.limits.maxQueryLength ∧ c.limits.maxDepth = 0)) := by
  refine ⟨c.exists_validate_eq_error_iff, c.limits.admit_iff, ?_⟩
  rw [exists_validate_eq_error_iff, Limits.admit_iff]
  omega

/-- Two bytes admit no query and are accepted; a depth of zero admits `a:x` and is refused. -/
theorem not_validate_error_iff_not_admit :
    let short : Configuration := ⟨⟨2, 128⟩, textSchema⟩
    let flat : Configuration := ⟨⟨500, 0⟩, textSchema⟩
    (short.validate = .ok () ∧ ¬short.limits.Admit) ∧
    (flat.validate = .error .zeroDepth ∧
      compile flat.limits textSchema "a:x" = .ok (nameCheck "x")) ∧
    ¬∀ c : Configuration, (∃ e, c.validate = .error e) ↔ ¬c.limits.Admit := by
  intro short flat
  have hshort : ¬short.limits.Admit := by
    rw [Limits.admit_iff]
    decide
  refine ⟨⟨rfl, hshort⟩, ⟨rfl, compile_shortest (by decide)⟩, fun h => ?_⟩
  obtain ⟨e, he⟩ := (h short).2 hshort
  cases he

end Configuration

end FieldFilter
