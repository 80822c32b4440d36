import FieldFilter.Comparison
import FieldFilter.Connective
import FieldFilter.Pattern
import FieldFilter.Value

/-!
# Predicates

A predicate is a tree of connectives over checks, each of which asks one thing of one field. It is
what a query becomes once a schema has settled how its quoted texts are matched. A predicate is
evaluated over anything that answers checks; a joined pair asks its right side only if the left
side leaves the answer open.
-/

namespace FieldFilter

/-- What a check asks of the value of its field. -/
inductive Test where
  | equals (value : Value)
  | within (range : Range)
  | fits (pattern : Pattern)
  | compares (op : Comparison) (value : Value)
  deriving DecidableEq, Repr

namespace Test

/-- Equality as written, except that the scales of numbers do not count. -/
def alike : Test → Test → Bool
  | equals v, equals w => v.alike w
  | within r, within s => r.alike s
  | fits p, fits p' => p == p'
  | compares op v, compares op' w => op == op' && v.alike w
  | _, _ => false

/-- A test as it follows the name of its field. -/
def toString : Test → String
  | equals v => "= " ++ v.toString
  | within r => "in " ++ r.toString
  | fits p => p.toString
  | compares op v => op.symbol ++ " " ++ v.toString

end Test

/-- A test of one field. -/
structure Check where
  field : String
  test : Test
  deriving DecidableEq, Repr

/-- A check as text. -/
def Check.toString (c : Check) : String := c.field ++ " " ++ c.test.toString

/-- A compiled filter. -/
inductive Predicate where
  | check (check : Check)
  | join (connective : Connective) (left right : Predicate)
  | not (operand : Predicate)
  /-- The same answer for everything. -/
  | always (answer : Bool)
  deriving DecidableEq, Repr

namespace Predicate

/-- Whether the predicate is the one that accepts everything. -/
def isAlways (p : Predicate) : Bool := p == always true

/-- Whether the predicate is the one that accepts nothing. -/
def isNever (p : Predicate) : Bool := p == always false

/-- The checks from left to right. -/
def checks : Predicate → List Check
  | check c => [c]
  | join _ left right => left.checks ++ right.checks
  | not operand => operand.checks
  | always _ => []

/-- Equality as written, except that the scales of numbers do not count. -/
def alike : Predicate → Predicate → Bool
  | check c, check c' => c.field == c'.field && c.test.alike c'.test
  | join c l r, join c' l' r' => c == c' && l.alike l' && r.alike r'
  | not p, not p' => p.alike p'
  | always b, always b' => b == b'
  | _, _ => false

/-- A predicate as text, every joined pair in parentheses. -/
def toString : Predicate → String
  | check c => c.toString
  | join .and left right => "(" ++ left.toString ++ " and " ++ right.toString ++ ")"
  | join .or left right => "(" ++ left.toString ++ " or " ++ right.toString ++ ")"
  | not operand => "not " ++ operand.toString
  | always b => if b then "true" else "false"

/-! ## Evaluation -/

/-- The truth value of a predicate under answers to its checks. -/
def eval (answer : Check → Bool) : Predicate → Bool
  | check c => answer c
  | join c left right => c.apply (left.eval answer) (right.eval answer)
  | not operand => !operand.eval answer
  | always b => b

/-- The truth value of a predicate and the checks that were asked on the way, each with its answer,
in order. The right side of a pair is asked only if the left side does not decide. -/
def ask (answer : Check → Bool) : Predicate → Bool × List (Check × Bool)
  | check c => (answer c, [(c, answer c)])
  | join c left right =>
    let (l, asked) := left.ask answer
    if l = c.decider then (l, asked)
    else
      let (r, more) := right.ask answer
      (r, asked ++ more)
  | not operand =>
    let (b, asked) := operand.ask answer
    (!b, asked)
  | always b => (b, [])

/-- Asking no more than needed does not change the truth value. -/
theorem ask_fst (answer : Check → Bool) (p : Predicate) :
    (p.ask answer).1 = p.eval answer := by
  induction p with
  | check c => rfl
  | join c left right ihl ihr =>
    simp only [ask, eval]
    split
    · rename_i h
      rw [ihl] at h
      rw [ihl, h, Connective.apply_decider]
    · rename_i h
      rw [ihl] at h
      rw [ihr, Connective.apply_of_ne_decider h]
  | not operand ih => simp only [ask, eval, ih]
  | always b => rfl

end Predicate

end FieldFilter
