import FieldFilter.Query.Parser

/-!
# The books of the parser

While the readers work, they share a place in the token list, with a counter of the groups and
negations around it, and a limit. Here they are written as work on these books, which also keep a
record: of the tokens that are stepped over, of the counter at every place that is gone to, and of
the calls that are active at the same time.

A reader is called with an allowance of calls: it may itself call others with one less, and gives up
if it has none. The rounds of the loop that joins terms come one after the other, so that they all
have the same allowance.
-/

namespace FieldFilter.Query.Parser

/-! ## Records -/

/-- What work leaves on record. -/
@[ext]
structure Trace where
  /-- The tokens stepped over. -/
  read : List Token := []
  /-- The counter of groups and negations at the places gone to. -/
  depths : List Nat := []
  /-- How many calls were active once a call had been made. -/
  calls : List Nat := []
  deriving DecidableEq

namespace Trace

instance : Append Trace :=
  ⟨fun t t' => ⟨t.read ++ t'.read, t.depths ++ t'.depths, t.calls ++ t'.calls⟩⟩

/-- What is on record if the work is done inside some calls. -/
def inside (active : Nat) (t : Trace) : Trace := { t with calls := t.calls.map (active + ·) }

/-- The most calls that were active at once. -/
def peak (t : Trace) : Nat := t.calls.foldr max 0

/-- Records are put one behind the other in any grouping. -/
theorem append_assoc (t t' t'' : Trace) : t ++ t' ++ t'' = t ++ (t' ++ t'') :=
  Trace.ext (List.append_assoc ..) (List.append_assoc ..) (List.append_assoc ..)

/-- Nothing is added behind a record by work that leaves none. -/
theorem append_empty (t : Trace) : t ++ {} = t :=
  Trace.ext (List.append_nil _) (List.append_nil _) (List.append_nil _)

/-- Nor is anything added in front of it. -/
theorem empty_append (t : Trace) : {} ++ t = t :=
  Trace.ext (List.nil_append _) (List.nil_append _) (List.nil_append _)

/-- Inside no calls the record is the same. -/
theorem inside_zero (t : Trace) : t.inside 0 = t :=
  Trace.ext rfl rfl (by simp [inside])

/-- The records of two pieces of work inside the same calls. -/
theorem inside_append (active : Nat) (t t' : Trace) :
    (t ++ t').inside active = t.inside active ++ t'.inside active :=
  congrArg (Trace.mk _ _) List.map_append

/-- A call and what is done inside it, inside other calls. -/
theorem inside_called (active : Nat) (t : Trace) :
    (({ calls := [1] } : Trace) ++ t.inside 1).inside active =
      { calls := [active + 1] } ++ t.inside (active + 1) := by
  have hcalls : [active + 1] ++ (t.calls.map (1 + ·)).map (active + ·) =
      [active + 1] ++ t.calls.map (active + 1 + ·) := by
    simp [Function.comp_def, Nat.add_assoc]
  exact congrArg (Trace.mk _ _) hcalls

/-- The peak of two pieces of work, one after the other. -/
theorem peak_append (t t' : Trace) : (t ++ t').peak = max t.peak t'.peak := by
  obtain ⟨_, _, calls⟩ := t
  show (calls ++ t'.calls).foldr max 0 = max (calls.foldr max 0) t'.peak
  induction calls with
  | nil => exact (Nat.zero_max _).symm
  | cons n calls ih => rw [List.cons_append, List.foldr_cons, ih, List.foldr_cons, Nat.max_assoc]

/-- A call is active beside all that are made inside it. -/
theorem peak_called (t : Trace) :
    (({ calls := [1] } : Trace) ++ t.inside 1).peak = t.peak + 1 := by
  obtain ⟨_, _, calls⟩ := t
  show max 1 ((calls.map (1 + ·)).foldr max 0) = calls.foldr max 0 + 1
  induction calls with
  | nil => rfl
  | cons n calls ih =>
    rw [List.map_cons, List.foldr_cons, List.foldr_cons]
    omega

end Trace

/-- What the readers share while they work. -/
structure Books where
  place : Cursor
  /-- The depth limit. -/
  limit : Nat
  /-- The number of calls that are active, one inside the other. -/
  active : Nat
  /-- What has been left on record so far. -/
  trace : Trace
  deriving DecidableEq

/-- Work on the books that yields a result or an error, or gets stuck and yields neither. -/
abbrev Booked (α : Type) := ExceptT SyntaxError (StateT Books Option) α

namespace Booked

/-! ## Steps -/

/-- There is no going on. -/
def stuck {α : Type} : Booked α := ExceptT.mk failure

/-- The place to which the work has come. -/
def here : Booked Cursor := do
  return (← get).place

/-- The depth limit. -/
def bound : Booked Nat := do
  return (← get).limit

/-- Go to another place, over some tokens. -/
def goTo (next : Cursor) (read : List Token) : Booked Unit :=
  modify fun books => { books with
    place := next, trace := books.trace ++ { read := read, depths := [next.depth] } }

/-- Work inside one more call, which is over when the work ends, in whatever way. -/
def called {α : Type} (work : Booked α) : Booked α := ExceptT.mk do
  modify fun books => { books with
    active := books.active + 1, trace := books.trace ++ { calls := [books.active + 1] } }
  let outcome ← work.run
  modify fun books => { books with active := books.active - 1 }
  return outcome

/-- The current token. -/
def look : Booked Token := do
  return (← here).current

/-- Step over the current token. -/
def bump : Booked Token := do
  let s ← here
  goTo s.advance [s.current]
  return s.current

/-- Give up because the current token is none of the expected kinds. -/
def refuse {α : Type} (expected : List Token.Kind) : Booked α := do
  throw ((← here).unexpected expected)

/-- Give up if a depth is beyond the limit. -/
def check (depth offset : Nat) : Booked Unit := do
  let limit ← bound
  if limit < depth then throw (.nestingTooDeep limit offset)

/-- Count one more group or negation. -/
def enter (offset : Nat) : Booked Unit := do
  let inner := (← here).enter
  goTo inner []
  check inner.depth offset

/-- Count one group or negation less, which is impossible at zero. -/
def leave : Booked Unit := do
  let s ← here
  if s.depth = 0 then stuck else goTo s.leave []

/-- The height of a new node over a child of some height. -/
def grow (height offset : Nat) : Booked Nat := do
  check (height + 1) offset
  return height + 1

/-! ## Conditions -/

/-- Read a literal value. -/
def value : Booked Value := do
  match Parser.value (← here) with
  | .ok (v, _) =>
    let _ ← bump
    return v
  | .error e => throw e

/-- Read what follows the colon of a condition. -/
def condition : Booked Condition := do
  match (← look).kind with
  | .quoted => return .quoted (← bump).text
  | .comparison op =>
    let _ ← bump
    return .compares op (← value)
  | kind =>
    if kind.isValue then
      let lower ← value
      if (← look).kind = .dots then
        let _ ← bump
        return .within ⟨lower, ← value⟩
      else return .equals lower
    else refuse conditionStart

/-- Read a condition on the field that the current token names. -/
def fieldTerm : Booked Query := do
  let name ← bump
  if (← look).kind = .colon then
    let _ ← bump
    return .leaf name.text (← condition)
  else refuse [.colon]

/-! ## Terms and expressions -/

/-- Read a group, what is inside by the given work. -/
def group (inside : Booked (Query × Nat)) : Booked (Query × Nat) := do
  let opening ← bump
  enter opening.offset
  let inner ← inside
  if (← look).kind = .rightParen then
    let _ ← bump
    leave
    return inner
  else refuse afterGroup

/-- Read a negation, its operand by the given work. -/
def negation (operand : Booked (Query × Nat)) : Booked (Query × Nat) := do
  let sign ← bump
  enter sign.offset
  let (query, height) ← operand
  leave
  return (.not query, ← grow height sign.offset)

/-- Join what follows to a query already read, the right sides by the given work. The rounds of this
loop are told how many of them there may be at most. -/
def climb (operand : Nat → Booked (Query × Nat)) (min : Nat) :
    Nat → Query → Nat → Booked (Query × Nat)
  | 0, _, _ => stuck
  | rounds + 1, left, height => do
    match (← look).kind with
    | .connective c =>
      if c.precedence < min then return (left, height)
      else
        let sign ← bump
        let (right, rightHeight) ← operand (c.precedence + 1)
        let taller ← grow (max height rightHeight) sign.offset
        climb operand min rounds (.join c left right) taller
    | _ => return (left, height)

mutual

/-- Read a term, and find its height, with an allowance of calls. -/
def term : Nat → Booked (Query × Nat)
  | 0 => stuck
  | calls + 1 => called do
    match (← look).kind with
    | .leftParen => group (expression calls 0)
    | .not => negation (term calls)
    | .identifier => return (← fieldTerm, 0)
    | _ => refuse termStart

/-- Read terms joined by connectives that bind at least as tightly as `min`, and find the height,
with an allowance of calls. No more rounds are needed than there are tokens ahead, and one. -/
def expression : Nat → Nat → Booked (Query × Nat)
  | 0, _ => stuck
  | calls + 1, min => called do
    let (first, height) ← term calls
    let ahead := (← here).tokens.length
    climb (expression calls) min (ahead + 1) first height

end

/-- Read a query that goes on to the end of input, with an allowance of calls. -/
def query (calls : Nat) : Booked Query := do
  let (query, _) ← expression calls 0
  if (← look).kind = .endOfInput then return query else refuse afterQuery

end Booked

end FieldFilter.Query.Parser

/-! ## Whole queries -/

namespace FieldFilter.Query

open FieldFilter.Query.Parser

/-- The books that are opened for a token list. -/
def Parser.Books.opening (maxDepth : Nat) (tokens : List Token) : Books :=
  ⟨Cursor.start tokens, min maxDepth maxDepthLimit, 0, {}⟩

/-- What parsing a token list on books of its own comes to, with an allowance of calls. -/
def report (calls maxDepth : Nat) (tokens : List Token) :
    Option (Except SyntaxError Query × Books) :=
  (Booked.query calls).run.run (Books.opening maxDepth tokens)

/-- The query that a token list spells, read with an allowance of calls. -/
def ofTokensWithin (calls maxDepth : Nat) (tokens : List Token) :
    Option (Except SyntaxError Query) :=
  (report calls maxDepth tokens).map Prod.fst

/-- What parsing a token list leaves on record. Of the calls that are active at once, no three have
the same number of tokens ahead, so that the allowance is ample. -/
def traceOf (maxDepth : Nat) (tokens : List Token) : Trace :=
  ((report (2 * tokens.length + 2) maxDepth tokens).map fun r => r.2.trace).getD {}

/-- The greatest number of calls that are active at once while a token list is parsed. -/
def mostCalls (maxDepth : Nat) (tokens : List Token) : Nat :=
  (traceOf maxDepth tokens).peak

end FieldFilter.Query
