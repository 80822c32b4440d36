import FieldFilter.Predicate

/-!
# Which checks are asked

A run of a predicate asks some of its checks, from left to right, and the answers that it gets
decide which ones. Every check has its place in the predicate, given by the pairs in whose right
side it stands. It is asked exactly if none of these pairs is decided by its left side. So a run
depends on the answers that it gets and on no other: whoever gives the same ones is asked the same.
-/

namespace FieldFilter

/-! ## Places -/

/-- A check at its place in a predicate. -/
structure PlacedCheck where
  check : Check
  /-- The pairs in whose right side the check stands, from the outermost to the innermost one, each
  by its connective and its left side. -/
  behind : List (Connective × Predicate)

/-- The place of a check once the predicate around it is the right side of a pair. -/
def PlacedCheck.toRight (c : Connective) (left : Predicate) (p : PlacedCheck) : PlacedCheck :=
  { p with behind := (c, left) :: p.behind }

namespace Predicate

/-- The checks from left to right, each at its place. -/
def placedChecks : Predicate → List PlacedCheck
  | check c => [⟨c, []⟩]
  | join c left right => left.placedChecks ++ right.placedChecks.map (.toRight c left)
  | not operand => operand.placedChecks
  | always _ => []

/-- Whether a left side leaves the value of its pair open: it is true under `AND` and false under
`OR`. -/
def leavesOpen (answer : Check → Bool) (c : Connective) (left : Predicate) : Bool :=
  match c with
  | .and => left.eval answer
  | .or => !left.eval answer

variable {answer : Check → Bool} {c : Connective} {left : Predicate}

/-- A left side that decides leaves nothing to the right side. -/
theorem leavesOpen_eq_false (h : left.eval answer = c.decider) :
    left.leavesOpen answer c = false := by
  cases c <;> simp [leavesOpen, h, Connective.decider]

/-- A left side that does not decide leaves it to the right side. -/
theorem leavesOpen_eq_true (h : left.eval answer ≠ c.decider) :
    left.leavesOpen answer c = true := by
  cases c <;> simpa [leavesOpen, Connective.decider] using h

/-- The places hold the checks of the predicate, in order. -/
theorem map_check_placedChecks (p : Predicate) :
    p.placedChecks.map PlacedCheck.check = p.checks := by
  induction p with
  | check c => rfl
  | join c left right ihl ihr =>
    have hright : (right.placedChecks.map (.toRight c left)).map PlacedCheck.check =
        right.placedChecks.map PlacedCheck.check := List.map_map
    rw [placedChecks, checks, List.map_append, hright, ihl, ihr]
  | not operand ih => exact ih
  | always b => rfl

end Predicate

namespace PlacedCheck

variable {answer : Check → Bool} {c : Connective} {left : Predicate}

/-- Whether no pair that the check stands behind is decided by its left side. -/
def isReached (answer : Check → Bool) (p : PlacedCheck) : Bool :=
  p.behind.all fun (c, left) => left.leavesOpen answer c

/-- A check on the right side is reached if the left side leaves it open, and then as in the right
side alone. -/
theorem isReached_toRight (p : PlacedCheck) :
    (p.toRight c left).isReached answer = (left.leavesOpen answer c && p.isReached answer) :=
  List.all_cons

/-- Nothing in the right side of a pair is reached if the left side decides. -/
theorem filter_toRight_of_decided (h : left.eval answer = c.decider) (ps : List PlacedCheck) :
    (ps.map (toRight c left)).filter (isReached answer) = [] := by
  apply List.filter_eq_nil_iff.2
  intro p hp
  obtain ⟨p, _, rfl⟩ := List.mem_map.1 hp
  simp [isReached_toRight, Predicate.leavesOpen_eq_false h]

/-- If the left side of a pair does not decide, what is reached in the right side is what would be
reached in it alone. -/
theorem filter_toRight_of_open (h : left.eval answer ≠ c.decider) (ps : List PlacedCheck) :
    (ps.map (toRight c left)).filter (isReached answer) =
      (ps.filter (isReached answer)).map (toRight c left) := by
  have hreached : isReached answer ∘ toRight c left = isReached answer := by
    funext p
    rw [Function.comp_apply, isReached_toRight, Predicate.leavesOpen_eq_true h, Bool.true_and]
  rw [List.filter_map, hreached]

end PlacedCheck

/-! ## Runs -/

namespace Predicate

variable {answer answer' : Check → Bool}

/-- A run of a pair is a run of its left side, followed by a run of its right side if the left one
does not decide. -/
theorem ask_join (answer : Check → Bool) (c : Connective) (left right : Predicate) :
    (join c left right).ask answer =
      if left.eval answer = c.decider then left.ask answer
      else ((right.ask answer).1, (left.ask answer).2 ++ (right.ask answer).2) := by
  rw [← ask_fst]
  rfl

/-- The checks that are asked are the ones that are reached, each with its own answer. -/
theorem ask_snd (answer : Check → Bool) (p : Predicate) :
    (p.ask answer).2 = (p.placedChecks.filter (PlacedCheck.isReached answer)).map
      fun place => (place.check, answer place.check) := by
  induction p with
  | check c => rfl
  | join c left right ihl ihr =>
    rw [ask_join, placedChecks, List.filter_append, List.map_append]
    by_cases h : left.eval answer = c.decider
    · rw [if_pos h, ihl, PlacedCheck.filter_toRight_of_decided h, List.map_nil, List.append_nil]
    · rw [if_neg h, ihl, ihr, PlacedCheck.filter_toRight_of_open h, List.map_map]
      rfl
  | not operand ih => exact ih
  | always b => rfl

/-- The checks that are asked are some of the checks, in order and none of them twice. -/
theorem map_fst_ask_sublist (answer : Check → Bool) (p : Predicate) :
    ((p.ask answer).2.map Prod.fst).Sublist p.checks := by
  rw [ask_snd, List.map_map, ← map_check_placedChecks]
  exact List.filter_sublist.map PlacedCheck.check

/-- Whoever gives the answers that a run got is asked the same. -/
theorem ask_eq_of_agree {p : Predicate}
    (h : ∀ entry ∈ (p.ask answer).2, answer' entry.1 = entry.2) : p.ask answer' = p.ask answer := by
  induction p with
  | check c =>
    have hanswer : answer' c = answer c := h _ (List.mem_singleton_self _)
    rw [ask, ask, hanswer]
  | join c left right ihl ihr =>
    rw [ask_join] at h ⊢
    rw [ask_join]
    by_cases hleft : left.eval answer = c.decider
    · rw [if_pos hleft] at h ⊢
      have hl := ihl h
      have hleft' : left.eval answer' = c.decider := by
        rw [← ask_fst, hl, ask_fst, hleft]
      rw [if_pos hleft', hl]
    · rw [if_neg hleft] at h ⊢
      have hl := ihl fun entry hentry => h entry (List.mem_append_left _ hentry)
      have hr := ihr fun entry hentry => h entry (List.mem_append_right _ hentry)
      have hleft' : left.eval answer' ≠ c.decider := by
        rw [← ask_fst, hl, ask_fst]
        exact hleft
      rw [if_neg hleft', hl, hr]
  | not operand ih => rw [ask, ask, ih h]
  | always b => rfl

/-- A run asks in order, no more than needed, and depends on nothing else. Its result is the truth
value of the predicate under the answers to all of its checks. The checks that it asks, each with
its own answer, are those at the places that are reached, and a place is reached if a run of every
left side that it stands behind gives true under `AND` and false under `OR`. So they are some of the
checks of the predicate, from left to right, each asked once at most. Answers that agree with those
on the record of a run give the same record and the same result. -/
theorem ask_in_order (p : Predicate) (answer : Check → Bool) :
    (p.ask answer).1 = p.eval answer ∧
    p.placedChecks.map PlacedCheck.check = p.checks ∧
    (p.ask answer).2 = (p.placedChecks.filter (PlacedCheck.isReached answer)).map
      (fun place => (place.check, answer place.check)) ∧
    (∀ place ∈ p.placedChecks, place.isReached answer = true ↔
      ∀ pair ∈ place.behind, (pair.1 = .and → (pair.2.ask answer).1 = true) ∧
        (pair.1 = .or → (pair.2.ask answer).1 = false)) ∧
    ((p.ask answer).2.map Prod.fst).Sublist p.checks ∧
    ∀ answer' : Check → Bool, (∀ entry ∈ (p.ask answer).2, answer' entry.1 = entry.2) →
      p.ask answer' = p.ask answer := by
  refine ⟨ask_fst answer p, map_check_placedChecks p, ask_snd answer p, ?_,
    map_fst_ask_sublist answer p, fun answer' h => ask_eq_of_agree h⟩
  intro place _
  rw [PlacedCheck.isReached, List.all_eq_true]
  refine forall₂_congr fun (c, left) _ => ?_
  cases c <;> simp [leavesOpen, ask_fst]

/-- In `(a AND b) OR NOT c` the check of `b` is passed over once `a` has failed, and so does not
tell two ways of answering apart. -/
theorem ask_in_order_passedOver :
    let flag (field : String) : Check := ⟨field, .equals (.boolean true)⟩
    let p : Predicate := .join .or (.join .and (.check (flag "a")) (.check (flag "b")))
      (.not (.check (flag "c")))
    let answer (c : Check) : Bool := c.field != "a"
    let answer' (c : Check) : Bool := c.field == "c"
    p.placedChecks.map (fun place => (place.check, place.isReached answer)) =
      [(flag "a", true), (flag "b", false), (flag "c", true)] ∧
    (p.ask answer).2 = [(flag "a", false), (flag "c", true)] ∧
    (∀ entry ∈ (p.ask answer).2, answer' entry.1 = entry.2) ∧
    answer (flag "b") ≠ answer' (flag "b") ∧ p.ask answer' = p.ask answer := by
  intro flag p answer answer'
  have hagree : ∀ entry ∈ (p.ask answer).2, answer' entry.1 = entry.2 := by decide
  obtain ⟨-, -, -, -, -, hsame⟩ := ask_in_order p answer
  exact ⟨rfl, rfl, hagree, by decide, hsame answer' hagree⟩

end Predicate

end FieldFilter
