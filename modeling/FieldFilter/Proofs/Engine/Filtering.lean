import FieldFilter.Engine
import FieldFilter.Proofs.Compilation.Composition
import Mathlib.Data.List.FinRange

/-!
# Filtering by a query and by its negation

A candidate that lacks a field passes no check of it, and neither does one that holds a value of
another kind. Yet the negation of a query is no check but the opposite of the whole query, so it
keeps exactly the candidates that the query drops. Positions count, not candidates: one that occurs
twice is kept twice or dropped twice.
-/

namespace FieldFilter

/-! ## Kept positions -/

section Positions

variable {α : Type} (keep : α → Bool) (xs : List α)

/-- The positions of the elements that are kept, in ascending order. -/
def keptPositions : List (Fin xs.length) :=
  (List.finRange xs.length).filter fun i => keep (xs.get i)

variable {keep xs}

theorem mem_keptPositions {i : Fin xs.length} :
    i ∈ keptPositions keep xs ↔ keep (xs.get i) = true := by
  simp [keptPositions, List.mem_finRange]

theorem pairwise_keptPositions : (keptPositions keep xs).Pairwise (· < ·) :=
  (List.pairwise_lt_finRange xs.length).filter _

/-- The kept elements stand at the kept positions. -/
theorem map_get_keptPositions : (keptPositions keep xs).map xs.get = xs.filter keep := by
  have hmap : ((List.finRange xs.length).filter (keep ∘ xs.get)).map xs.get =
      ((List.finRange xs.length).map xs.get).filter keep := List.filter_map.symm
  rw [List.map_get_finRange] at hmap
  exact hmap

end Positions

/-! ## Negation -/

/-- A text that is compiled at all compiles to what it may compile to. -/
theorem CompilesWithin.eq_of_compile {limits : Limits} {schema : Schema} {text : String}
    {p r : Predicate} (h : CompilesWithin limits schema text p)
    (hr : compile limits schema text = .ok r) : r = p := by
  unfold CompilesWithin at h
  split at h
  · rw [hr] at h
    cases h
  · rcases h with h | ⟨offset, h⟩
    · exact Except.ok.inj (hr.symm.trans h)
    · rw [hr] at h
      cases h

/-- A query in parentheses with `NOT` in front of it compiles to the negation of the query, if it
is compiled at all. -/
theorem eq_not_of_compile_negatedText {limits : Limits} {schema : Schema} {text : String}
    {p r : Predicate} (hblank : isBlank text = false) (hp : compile limits schema text = .ok p)
    (hr : compile limits schema (negatedText text) = .ok r) : r = .not p := by
  obtain ⟨q, depths, hspells, hresolve, _⟩ := exists_spells_of_compile hblank hp
  have hnegated : CompilesWithin limits schema (negatedText text) (.not p) :=
    compilesWithin_of_spells (isBlank_negatedText text) (spells_negatedText hspells)
      (resolve_not hresolve)
  exact hnegated.eq_of_compile hr

/-! ## Filtering -/

namespace Engine

variable {e : Engine} {text : String} {p : Predicate}

/-- An engine compiles under its limits and against its schema. -/
theorem compile_eq_ok_iff :
    e.compile text = .ok p ↔ FieldFilter.compile e.limits e.schema text = .ok p := by
  unfold compile
  cases FieldFilter.compile e.limits e.schema text with
  | error error => simp
  | ok r => simp

variable {α : Type} (answer : α → Check → Bool)

/-- Filtering keeps the candidates that the compiled query accepts. -/
theorem filter_of_compile (h : e.compile text = .ok p) (candidates : List α) :
    e.filter answer text candidates = .ok (candidates.filter fun c => p.eval (answer c)) := by
  unfold filter
  rw [h]

/-- Filtering two lists one after the other is filtering them in one. -/
theorem filter_append_of_compile (h : e.compile text = .ok p) (xs ys : List α) :
    ∃ as bs, e.filter answer text xs = .ok as ∧ e.filter answer text ys = .ok bs ∧
      e.filter answer text (xs ++ ys) = .ok (as ++ bs) := by
  refine ⟨_, _, filter_of_compile answer h xs, filter_of_compile answer h ys, ?_⟩
  rw [filter_of_compile answer h, List.filter_append]

/-- A query and its negation divide the candidates between them. If both of them compile, each
position is kept by exactly one of the two filters, by that of the query if the query accepts the
candidate there. Both filters keep the order of the candidates, and both can be applied to the parts
of a list one by one. -/
theorem filter_complements {r : Predicate} (hblank : isBlank text = false)
    (hp : e.compile text = .ok p) (hr : e.compile ("NOT (" ++ text ++ ")") = .ok r) :
    (∀ candidates : List α, ∃ kept dropped : List (Fin candidates.length),
      e.filter answer text candidates = .ok (kept.map candidates.get) ∧
      e.filter answer ("NOT (" ++ text ++ ")") candidates = .ok (dropped.map candidates.get) ∧
      kept.Pairwise (· < ·) ∧ dropped.Pairwise (· < ·) ∧
      ∀ i, (i ∈ kept ↔ p.eval (answer (candidates.get i)) = true) ∧ (i ∈ dropped ↔ i ∉ kept)) ∧
    ∀ t ∈ [text, "NOT (" ++ text ++ ")"], ∀ xs ys : List α, ∃ as bs,
      e.filter answer t xs = .ok as ∧ e.filter answer t ys = .ok bs ∧
      e.filter answer t (xs ++ ys) = .ok (as ++ bs) := by
  obtain rfl : r = .not p :=
    eq_not_of_compile_negatedText hblank (compile_eq_ok_iff.1 hp) (compile_eq_ok_iff.1 hr)
  refine ⟨fun candidates => ?_, fun t ht => ?_⟩
  · refine ⟨keptPositions (fun c => p.eval (answer c)) candidates,
      keptPositions (fun c => p.not.eval (answer c)) candidates, ?_, ?_,
      pairwise_keptPositions, pairwise_keptPositions, fun i => ⟨mem_keptPositions, ?_⟩⟩
    · rw [filter_of_compile answer hp, map_get_keptPositions]
    · rw [filter_of_compile answer hr, map_get_keptPositions]
    · rw [mem_keptPositions, mem_keptPositions, Predicate.eval, Bool.not_eq_true',
        Bool.not_eq_true]
  · rcases List.mem_cons.1 ht with rfl | ht
    · exact filter_append_of_compile answer hp
    · obtain rfl := List.mem_singleton.1 ht
      exact filter_append_of_compile answer hr

/-- Four candidates: one without the field, one with the name, one with a truth value in its place,
and the second one again. -/
theorem filter_complements_missingField :
    let e : Engine := ⟨.default, textSchema⟩
    let named : Record := FieldMap.empty.insert "a" (.quoted "x")
    let flagged : Record := FieldMap.empty.insert "a" (.boolean true)
    let candidates := [FieldMap.empty, named, flagged, named]
    isBlank "a:x" = false ∧ e.compile "a:x" = .ok (nameCheck "x") ∧
    e.compile "NOT (a:x)" = .ok (.not (nameCheck "x")) ∧
    (∃ kept dropped : List (Fin 4),
      e.filter Record.answer "a:x" candidates = .ok (kept.map candidates.get) ∧
      e.filter Record.answer "NOT (a:x)" candidates = .ok (dropped.map candidates.get) ∧
      kept.Pairwise (· < ·) ∧ dropped.Pairwise (· < ·) ∧
      ∀ i, (i ∈ kept ↔ (nameCheck "x").eval (Record.answer (candidates.get i)) = true) ∧
        (i ∈ dropped ↔ i ∉ kept)) ∧
    e.filter Record.answer "a:x" candidates = .ok [named, named] ∧
    e.filter Record.answer "NOT (a:x)" candidates = .ok [FieldMap.empty, flagged] := by
  intro e named flagged candidates
  have hblank : isBlank "a:x" = false := rfl
  have hp : e.compile "a:x" = .ok (nameCheck "x") := by decide +kernel
  have hr : e.compile "NOT (a:x)" = .ok (.not (nameCheck "x")) := by decide +kernel
  refine ⟨hblank, hp, hr, (filter_complements Record.answer hblank hp hr).1 candidates, ?_, ?_⟩
  · rw [filter_of_compile _ hp]
    decide
  · rw [filter_of_compile _ hr]
    decide

end Engine

end FieldFilter
