import FieldFilter.Proofs.Query.Offsets
import FieldFilter.Proofs.Query.Readings

/-!
# The token that an error is about

Every error of the parser is about one of the tokens that it was given: the current token where the
parser gives up, or a token that it has stepped over and that opens a group, a negation or the right
side of a connective. A token behind the first end of input is never to blame.
-/

namespace FieldFilter

/-- Whether a token of this kind takes the query one level deeper. -/
def Token.Kind.deepens : Kind → Bool
  | leftParen | not | connective _ => true
  | _ => false

theorem Token.Kind.ne_of_deepens {kind other : Kind} (h : kind.deepens = true)
    (hother : other.deepens = false) : kind ≠ other := by
  rintro rfl
  rw [h] at hother
  cases hother

/-- No token but the end of input is described as it is. -/
theorem Token.description_ne_endOfInput {t : Token} (ht : t.kind ≠ .endOfInput) :
    t.description ≠ "end of input" := by
  intro h
  have hhead := congrArg (fun s : String => s.toList.head?) h
  unfold Token.description at hhead
  split at hhead
  · exact ht ‹_›
  · simp at hhead
  · simp at hhead

/-- An error is about a token: it has the text and the offset of the token, and a kind of token that
can give rise to it. -/
inductive SyntaxError.Blames (limit : Nat) (t : Token) : SyntaxError → Prop
  | misfit (expected : List Token.Kind) : Blames limit t (t.misfit expected)
  | invalidNumber (ht : t.kind = .number) : Blames limit t (.invalidNumber t.text t.offset)
  | nestingTooDeep (ht : t.kind.deepens = true) : Blames limit t (.nestingTooDeep limit t.offset)

namespace Query

open SyntaxError

namespace Parser

open Cursor

/-! ## Blame in a token list -/

/-- A token that is no value is to blame for that. -/
theorem blames_valueError (limit : Nat) (t : Token) : Blames limit t t.valueError := by
  unfold Token.valueError
  split
  · exact .invalidNumber ‹_›
  · exact .misfit _

/-- An error is about one of the tokens from some place through the end of input. -/
def Blamed (limit : Nat) (s : Cursor) (e : SyntaxError) : Prop :=
  ∃ t ∈ s.ahead, Blames limit t e

namespace Blamed

variable {limit : Nat} {s next : Cursor} {e : SyntaxError}

/-- An error is about the current token. -/
theorem here (h : Blames limit s.current e) : Blamed limit s e := by
  refine ⟨s.current, ?_, h⟩
  by_cases hs : s.current.kind = .endOfInput
  · exact ahead_of_endOfInput hs ▸ List.mem_cons_self
  · exact ahead_eq_cons hs ▸ List.mem_cons_self

/-- What is behind some tokens is behind the place in front of them. -/
theorem behind {least : Nat} (h : Blamed limit next e) (hconsumes : Consumes least s next) :
    Blamed limit s e := by
  obtain ⟨t, ht, hblames⟩ := h
  obtain ⟨read, hread, -⟩ := hconsumes
  refine ⟨t, ?_, hblames⟩
  rw [ahead, hread.tokens, ← hread.finish, Token.through_append hread.ne_endOfInput]
  exact List.mem_append_right _ ht

/-- What is behind the current token is behind its place. -/
theorem advance (h : Blamed limit s.advance e) (hs : s.current.kind ≠ .endOfInput) :
    Blamed limit s e :=
  h.behind (.one hs)

end Blamed

/-- A value that cannot be read is the fault of the current token. -/
theorem blamed_of_value {limit : Nat} {s : Cursor} {e : SyntaxError} (h : value s = .error e) :
    Blamed limit s e := by
  cases hv : s.current.value? with
  | none =>
    rw [value_eq_error hv] at h
    obtain rfl := Except.error.inj h
    exact .here (blames_valueError limit _)
  | some v =>
    rw [value_eq_ok hv] at h
    cases h

/-- A condition that cannot be read is the fault of one of the tokens behind the first. -/
theorem blamed_of_condition {limit : Nat} {s : Cursor} {e : SyntaxError}
    (h : condition s = .error e) : Blamed limit s e := by
  rcases condition_cases s with hk | ⟨op, hk⟩ | hk | ⟨hquoted, hcomparison, hvalue⟩
  · rw [condition_of_quoted hk] at h
    cases h
  · rw [condition_of_comparison hk] at h
    exact (blamed_of_value (eq_error_of_map h)).advance (by simp [hk])
  · cases hv : s.current.value? with
    | none =>
      rw [condition_of_value?_eq_none hk hv] at h
      obtain rfl := Except.error.inj h
      exact .here (blames_valueError limit _)
    | some v =>
      rw [condition_of_value (value_eq_ok hv)] at h
      split at h
      · rename_i hdots
        have hupper : Blamed limit s.advance.advance e := blamed_of_value (eq_error_of_map h)
        exact (hupper.advance (by simp [hdots])).advance (ne_endOfInput_of_value? hv)
      · cases h
  · rw [condition_of_not_start hquoted hcomparison hvalue] at h
    obtain rfl := Except.error.inj h
    exact .here (.misfit _)

/-- A condition on a field that cannot be read is the fault of a token behind the name. -/
theorem blamed_of_fieldTerm {limit : Nat} {s : Cursor} {e : SyntaxError}
    (hs : s.current.kind = .identifier) (h : fieldTerm s = .error e) : Blamed limit s e := by
  have hname : s.current.kind ≠ .endOfInput := by simp [hs]
  by_cases hcolon : s.advance.current.kind = .colon
  · rw [fieldTerm_of_colon hcolon] at h
    have hcondition : Blamed limit s.advance.advance e := blamed_of_condition (eq_error_of_map h)
    exact (hcondition.advance (by simp [hcolon])).advance hname
  · rw [fieldTerm_of_not_colon hcolon] at h
    obtain rfl := Except.error.inj h
    exact Blamed.advance (.here (.misfit _)) hname

/-- A call that fails does so because of a token from its place on. -/
theorem blamed_of_run {limit : Nat} {call : Call} {e : SyntaxError}
    (h : Run limit call (.error e)) : Blamed limit call.place e := by
  have hdeep {s : Cursor} {kind : Token.Kind} (hs : s.current.kind = kind)
      (hkind : kind.deepens = true) : Blamed limit s (.nestingTooDeep limit s.current.offset) :=
    .here (.nestingTooDeep (hs ▸ hkind))
  have hopen {s : Cursor} {kind : Token.Kind} (hs : s.current.kind = kind)
      (hkind : kind ≠ .endOfInput) (h : Blamed limit s.advance e) : Blamed limit s e :=
    h.advance (hs ▸ hkind)
  generalize ho : Except.error e = o at h
  induction h with
  | enterTooDeep hs =>
    cases ho
    rcases hs with hs | hs
    · exact hdeep hs rfl
    · exact hdeep hs rfl
  | @groupUnclosed s r hs _ inner =>
    cases ho
    have hinner : Blamed limit s.advance.enter (r.next.unexpected afterGroup) :=
      Blamed.behind (.here (.misfit _)) (consumes_of_run inner)
    exact hopen hs (by simp) hinner
  | groupFails hs _ _ ih | negationFails hs _ _ ih | joinFails hs _ _ ih =>
    exact hopen hs (by simp) (ih ho)
  | negationTooTall hs | joinTooTall hs =>
    cases ho
    exact hdeep hs rfl
  | conditionFails hs he =>
    cases ho
    exact blamed_of_fieldTerm hs he
  | noTerm =>
    cases ho
    exact .here (.misfit _)
  | @expression min s r o first _ _ ihm =>
    have hmore : Blamed limit r.next e := ihm ho
    have hfirst : Blamed limit (Call.term s).place e := hmore.behind (consumes_of_run first)
    exact hfirst
  | expressionFails _ ih => exact ih ho
  | @join min left height s c r o hs _ right _ _ _ ihm =>
    have hmore : Blamed limit r.next e := ihm ho
    exact hopen hs (by simp) (hmore.behind (consumes_of_run right))
  | group | negation | condition | stop => cases ho

end Parser

open FieldFilter.Query.Parser

/-- An error of a parse is about one of the tokens, or about the end of input behind them. -/
theorem blamed_of_ofTokens {maxDepth : Nat} {tokens : List Token} {e : SyntaxError}
    (h : ofTokens maxDepth tokens = .error e) :
    Blamed (min maxDepth maxDepthLimit) (Cursor.start tokens) e := by
  have run := run_outcome (min maxDepth maxDepthLimit) (.expression 0 (Cursor.start tokens))
  rw [ofTokens_eq_of_run run] at h
  cases ho : (Call.expression 0 (Cursor.start tokens)).outcome (min maxDepth maxDepthLimit) with
  | error e' =>
    rw [ho] at h
    obtain rfl := Except.error.inj h
    exact blamed_of_run (run.of_eq ho)
  | ok r =>
    rw [ho] at h
    simp only [bind, Except.bind, Reading.closed] at h
    split at h
    · cases h
    · obtain rfl := Except.error.inj h
      exact Blamed.behind (.here (.misfit _)) (consumes_of_run (run.of_eq ho))

end Query

end FieldFilter
