import FieldFilter.Proofs.Compilation.Outcome
import FieldFilter.Proofs.Document.Predicate
import FieldFilter.Proofs.Schema.Resolution

/-!
# Shipping compiled predicates

A host may send a compiled predicate to another process as text. Whether it arrives is decided by
its levels alone, which the limits on queries do not bound: with the default limits, a chain of
sixty-four conditions is compiled, but its text is refused. A depth limit of sixty-one is low enough
for every compiled predicate to arrive.
-/

namespace FieldFilter

/-- Whether the text of a predicate is read back as an equal predicate. -/
def Predicate.Arrives (p : Predicate) : Prop :=
  ∃ q : Predicate, ofJson p.toJson = .ok q ∧ q.alike p = true

/-- A predicate arrives exactly if it takes no more levels than a document may have; otherwise its
text is malformed to the reader. -/
theorem Predicate.arrives_iff (p : Predicate) :
    (p.Arrives ↔ p.levels ≤ 127) ∧ (127 < p.levels → ofJson p.toJson = .error .malformed) := by
  have hrefused (hlevels : 127 < p.levels) : ofJson p.toJson = .error .malformed := by
    rw [ofJson_toJson]
    exact if_neg (Nat.not_le_of_lt hlevels)
  refine ⟨⟨?_, fun hlevels => ⟨p.mapNumbers .dropZeroSign, ?_, ?_⟩⟩, hrefused⟩
  · rintro ⟨r, hr, _⟩
    refine Nat.le_of_not_lt fun hlevels => ?_
    rw [hrefused hlevels] at hr
    cases hr
  · rw [ofJson_toJson]
    exact if_pos hlevels
  · exact p.alike_mapNumbers Decimal.compare_dropZeroSign

/-! ## The levels of queries -/

/-- The levels that a query takes in a document once it is resolved: two for a connective, one for a
negation, three for a condition, and one more for the bounds of a range. -/
def Query.levels : Query → Nat
  | leaf _ (.within _) => 4
  | leaf _ _ => 3
  | join _ left right => max left.levels right.levels + 2
  | not operand => operand.levels + 1

/-- Resolution keeps the levels, whatever the styles of the fields are. -/
theorem Schema.Mirrors.levels_eq {schema : Schema} {q : Query} {p : Predicate}
    (h : schema.Mirrors q p) : p.levels = q.levels := by
  induction h with
  | leaf hfield htest => cases htest <;> rfl
  | join c hleft hright ihl ihr => rw [Predicate.levels, Query.levels, ihl, ihr]
  | not hoperand ih => rw [Predicate.levels, Query.levels, ih]

/-- A query takes at most two levels for each step of its height, and four below. -/
theorem Query.levels_le (q : Query) : q.levels ≤ 2 * q.height + 4 := by
  induction q with
  | leaf field c => cases c <;> simp [levels]
  | join c left right ihl ihr =>
    rw [levels, height]
    omega
  | not operand ih =>
    rw [levels, height]
    omega

/-- What is compiled takes the levels of its query; a blank text has none and takes one level. -/
theorem levels_eq_of_compile {limits : Limits} {schema : Schema} {text : String} {p : Predicate}
    (h : compile limits schema text = .ok p) :
    isBlank text = true ∧ p.levels = 1 ∨
      ∃ q, Query.parse limits.maxDepth text = .ok q ∧ p.levels = q.levels := by
  cases hblank : isBlank text with
  | true =>
    rw [compile_of_isBlank hblank] at h
    cases h
    exact .inl ⟨rfl, rfl⟩
  | false =>
    obtain ⟨_, q, hq, hp⟩ := (compile_eq_ok_iff hblank).1 h
    exact .inr ⟨q, hq, (Schema.mirrors_of_resolve hp).levels_eq⟩

/-! ## Low depth limits -/

/-- With a depth limit of at most sixty-one, whatever is compiled arrives. -/
theorem arrives_of_compile {limits : Limits} {schema : Schema} {text : String} {p : Predicate}
    (hlimit : limits.maxDepth ≤ 61) (h : compile limits schema text = .ok p) : p.Arrives := by
  refine p.arrives_iff.1.2 ?_
  rcases levels_eq_of_compile h with ⟨_, hlevels⟩ | ⟨q, hq, hlevels⟩
  · omega
  · obtain ⟨_, hspells⟩ := spells_of_parse hq
    have hheight := (bounds_of_parse hq hspells).1
    have hle := q.levels_le
    omega

/-! ## The default limits -/

/-- A chain of equal conditions joined by `OR`, with one more condition than links. -/
def orChain (q : Query) : Nat → Query
  | 0 => q
  | links + 1 => .join .or (orChain q links) q

/-- The condition `a:x`. -/
def nameQuery : Query := .leaf "a" (.equals (.identifier "x"))

theorem isSpellable_orChain (links : Nat) : (orChain nameQuery links).isSpellable = true := by
  induction links with
  | zero => rfl
  | succ links ih =>
    rw [orChain, Query.isSpellable, ih]
    rfl

/-- Each link is one step higher. -/
theorem height_orChain (links : Nat) : (orChain nameQuery links).height = links := by
  induction links with
  | zero => rfl
  | succ links ih =>
    have hname : nameQuery.height = 0 := rfl
    rw [orChain, Query.height, ih, hname, Nat.max_zero]

/-- Chains grow to the left, where they need no parentheses. -/
theorem precedence_orChain (links : Nat) :
    decide ((orChain nameQuery links).precedence < Connective.or.precedence) = false := by
  cases links <;> rfl

/-- No parentheses are needed. -/
theorem openings_orChain (links : Nat) : ∀ n ∈ (orChain nameQuery links).openings, n = 0 := by
  induction links with
  | zero => simp [orChain, nameQuery, Query.openings]
  | succ links ih =>
    have hopenings : (orChain nameQuery (links + 1)).openings =
        (orChain nameQuery links).openings ++ [0] := by
      rw [orChain, Query.openings, precedence_orChain]
      rfl
    rw [hopenings]
    intro n hn
    rcases List.mem_append.1 hn with hn | hn
    · exact ih n hn
    · exact List.mem_singleton.1 hn

/-- Each link adds seven bytes. -/
theorem utf8ByteSize_orChain (links : Nat) :
    (orChain nameQuery links).toString.utf8ByteSize = 7 * links + 3 := by
  induction links with
  | zero => rfl
  | succ links ih =>
    have htext : (orChain nameQuery (links + 1)).toString =
        (orChain nameQuery links).toString ++ " " ++ "OR" ++ " " ++ "a:x" := by
      rw [orChain, Query.toString, precedence_orChain]
      rfl
    have hspace : " ".utf8ByteSize = 1 := rfl
    have hkeyword : "OR".utf8ByteSize = 2 := rfl
    have hname : "a:x".utf8ByteSize = 3 := rfl
    rw [htext]
    simp only [String.utf8ByteSize_append, ih, hspace, hkeyword, hname]
    omega

/-- Each link takes two levels. -/
theorem exists_resolve_orChain (links : Nat) :
    ∃ p : Predicate, Schema.resolve textSchema (orChain nameQuery links) = .ok p ∧
      p.levels = 2 * links + 3 := by
  have hname : Schema.resolve textSchema nameQuery = .ok (nameCheck "x") := rfl
  induction links with
  | zero => exact ⟨nameCheck "x", hname, rfl⟩
  | succ links ih =>
    obtain ⟨p, hp, hlevels⟩ := ih
    refine ⟨.join .or p (nameCheck "x"), ?_, ?_⟩
    · simp [orChain, Schema.resolve, hp, hname, bind, Except.bind, pure, Except.pure]
    · have hcheck : (nameCheck "x").levels = 3 := rfl
      simp only [Predicate.levels, hlevels, hcheck]
      omega

/-- A predicate that was compiled under the default limits arrives exactly if it takes no more than
127 levels; otherwise its text is malformed to the reader. How many it takes is told by its query
alone, whatever the schema is. -/
theorem arrives_of_compile_default_iff (schema : Schema) (text : String) (p : Predicate) :
    compile .default schema text = .ok p →
      (p.Arrives ↔ p.levels ≤ 127) ∧
      (127 < p.levels → Predicate.ofJson p.toJson = .error .malformed) ∧
      (isBlank text = true ∧ p.levels = 1 ∨
        ∃ q, Query.parse Query.defaultMaxDepth text = .ok q ∧ p.levels = q.levels) := by
  intro h
  obtain ⟨harrives, hrefused⟩ := p.arrives_iff
  exact ⟨harrives, hrefused, levels_eq_of_compile h⟩

/-- A pair arrives: it takes five levels. -/
theorem arrives_pair :
    compile .default textSchema "a:x OR a:x" = .ok (.join .or (nameCheck "x") (nameCheck "x")) ∧
    (Predicate.join .or (nameCheck "x") (nameCheck "x")).Arrives := by
  have h : compile .default textSchema "a:x OR a:x" =
      .ok (.join .or (nameCheck "x") (nameCheck "x")) :=
    @compile_toString .default textSchema (orChain nameQuery 1) rfl _ rfl
      (by decide) (by decide) (by decide)
  exact ⟨h, (arrives_of_compile_default_iff _ _ _ h).1.2 (by decide)⟩

/-- A chain of sixty-four conditions is compiled and does not arrive. -/
theorem not_arrives_orChain :
    ∃ p : Predicate, compile .default textSchema (orChain nameQuery 63).toString = .ok p ∧
      ¬p.Arrives ∧ Predicate.ofJson p.toJson = .error .malformed := by
  obtain ⟨p, hp, hlevels⟩ := exists_resolve_orChain 63
  have hcompile : compile .default textSchema (orChain nameQuery 63).toString = .ok p := by
    refine compile_toString (isSpellable_orChain 63) hp ?_ ?_ ?_
    · rw [utf8ByteSize_orChain]
      decide
    · rw [height_orChain]
      decide
    · intro n hn
      rw [openings_orChain 63 n hn]
      exact Nat.zero_le _
  obtain ⟨harrives, hrefused⟩ := p.arrives_iff
  refine ⟨p, hcompile, fun h => ?_, hrefused (by omega)⟩
  have := harrives.1 h
  omega

end FieldFilter
