/-!
# Binary connectives

`AND` and `OR` differ in three ways only: how they are written, how tightly they bind, and what
they compute. Everything else about a joined pair is common to both.
-/

namespace FieldFilter

/-- A binary connective between two conditions. -/
inductive Connective where
  /-- Either side suffices, written `OR`. -/
  | or
  /-- Both sides are needed, written `AND`. -/
  | and
  deriving DecidableEq, Repr

namespace Connective

/-- The keyword of the connective. -/
def keyword : Connective → String
  | or => "OR"
  | and => "AND"

/-- How tightly the connective binds: `AND` binds tighter than `OR`. -/
def precedence : Connective → Nat
  | or => 1
  | and => 2

/-- The truth value of a joined pair. -/
def apply : Connective → Bool → Bool → Bool
  | or, a, b => a || b
  | and, a, b => a && b

/-- The value of the left side that settles the pair before the right side is asked. -/
def decider : Connective → Bool
  | or => true
  | and => false

/-- Once the left side has the deciding value, the right side makes no difference. -/
theorem apply_decider (c : Connective) (b : Bool) : c.apply c.decider b = c.decider := by
  cases c <;> rfl

/-- When the left side does not decide, the pair has the value of its right side. -/
theorem apply_of_ne_decider {c : Connective} {a : Bool} (h : a ≠ c.decider) (b : Bool) :
    c.apply a b = b := by
  cases c <;> cases a
  · rfl
  · exact absurd rfl h
  · exact absurd rfl h
  · rfl

end Connective

end FieldFilter
