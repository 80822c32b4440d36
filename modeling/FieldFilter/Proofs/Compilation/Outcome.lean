import FieldFilter.Compilation
import FieldFilter.Proofs.Query.CanonicalText

/-!
# What a text compiles to

Beside the blank texts, which accept everything, a text is compiled through the query that it
spells. What it spells decides what it compiles to, as far as the limits on length and depth go.
-/

namespace FieldFilter

variable {limits : Limits} {schema : Schema} {text : String}

/-- The text is compiled to the predicate unless a limit forbids it. A text beyond the length limit
is refused for that; one within it is refused for its depth at most. -/
def CompilesWithin (limits : Limits) (schema : Schema) (text : String) (p : Predicate) : Prop :=
  if limits.maxQueryLength < text.utf8ByteSize then
    compile limits schema text = .error (.tooLong text.utf8ByteSize limits.maxQueryLength)
  else
    compile limits schema text = .ok p ∨
      ∃ offset, compile limits schema text =
        .error (.malformed (.nestingTooDeep (min limits.maxDepth 256) offset))

/-- A blank text accepts everything, whatever the limits and the schema. -/
theorem compile_of_isBlank (h : isBlank text = true) (limits : Limits) (schema : Schema) :
    compile limits schema text = .ok (.always true) := by
  rw [compile, h, if_pos rfl]

/-- A text that is not blank is compiled exactly if it is short enough, parsed, and accepted by the
schema. -/
theorem compile_eq_ok_iff (hblank : isBlank text = false) {p : Predicate} :
    compile limits schema text = .ok p ↔
      text.utf8ByteSize ≤ limits.maxQueryLength ∧
        ∃ q, Query.parse limits.maxDepth text = .ok q ∧ schema.resolve q = .ok p := by
  unfold compile
  rw [hblank, if_neg Bool.false_ne_true]
  split
  · rename_i hlong
    simp only [reduceCtorEq, false_iff]
    intro h
    exact absurd hlong (Nat.not_lt_of_le h.1)
  · rename_i hlong
    have hshort := Nat.le_of_not_lt hlong
    constructor
    · intro h
      split at h
      · cases h
      · rename_i q hq
        split at h
        · cases h
        · rename_i hp
          cases h
          exact ⟨hshort, q, hq, hp⟩
    · rintro ⟨_, q, hq, hp⟩
      rw [hq]
      simp only [hp]

/-- Within the limits, a text compiles to the predicate of the query that it spells. -/
theorem compile_of_spells (hblank : isBlank text = false) {q : Query} {depths : List Nat}
    (hspells : Spells .whole text.toList q depths) {p : Predicate}
    (hp : schema.resolve q = .ok p) (hlength : text.utf8ByteSize ≤ limits.maxQueryLength)
    (hbound : q.height ≤ min limits.maxDepth 256 ∧ ∀ n ∈ depths, n ≤ min limits.maxDepth 256) :
    compile limits schema text = .ok p := by
  rw [compile_eq_ok_iff hblank]
  exact ⟨hlength, q, (parse_of_spells limits.maxDepth hspells).1 hbound, hp⟩

/-- What a text spells is what it compiles to, unless a limit forbids it. -/
theorem compilesWithin_of_spells (hblank : isBlank text = false) {q : Query} {depths : List Nat}
    (hspells : Spells .whole text.toList q depths) {p : Predicate}
    (hp : schema.resolve q = .ok p) : CompilesWithin limits schema text p := by
  unfold CompilesWithin
  split
  · rename_i hlong
    unfold compile
    rw [hblank, if_neg Bool.false_ne_true, if_pos hlong]
  · rename_i hlong
    by_cases hbound : q.height ≤ min limits.maxDepth 256 ∧
        ∀ n ∈ depths, n ≤ min limits.maxDepth 256
    · left
      exact compile_of_spells hblank hspells hp (Nat.le_of_not_lt hlong) hbound
    · right
      obtain ⟨offset, herror⟩ := (parse_of_spells limits.maxDepth hspells).2 hbound
      refine ⟨offset, ?_⟩
      unfold compile
      rw [hblank, if_neg Bool.false_ne_true, if_neg hlong, herror]
      rfl

/-- A character that is not white space keeps a text from being blank. -/
theorem isBlank_eq_false_of_mem {c : Char} (hc : c ∈ text.toList)
    (hchar : isBlankChar c = false) : isBlank text = false := by
  rw [isBlank, List.all_eq_false]
  exact ⟨c, hc, by simp [hchar]⟩

/-- A query that compiles alone spells some query of its predicate, wherever it stands, and that
query keeps to the depth limit. -/
theorem exists_spells_of_compile (hblank : isBlank text = false) {p : Predicate}
    (h : compile limits schema text = .ok p) :
    ∃ q depths, Spells .whole text.toList q depths ∧ schema.resolve q = .ok p ∧
      q.height ≤ min limits.maxDepth 256 ∧ ∀ n ∈ depths, n ≤ min limits.maxDepth 256 := by
  obtain ⟨_, q, hq, hp⟩ := (compile_eq_ok_iff hblank).1 h
  obtain ⟨depths, hspells⟩ := spells_of_parse hq
  exact ⟨q, depths, hspells, hp, bounds_of_parse hq hspells⟩

/-- The canonical text of a query mentions a field. -/
theorem Query.colon_mem_toString (q : Query) : ':' ∈ q.toString.toList := by
  have hparen (needed : Bool) {text : String} (h : ':' ∈ text.toList) :
      ':' ∈ (parenthesizeIf needed text).toList := by
    cases needed with
    | true => simp [parenthesizeIf, h]
    | false => exact h
  induction q with
  | leaf field c => simp [toString]
  | join c left right ihl _ => simp [toString, hparen _ ihl]
  | not operand ih => simp [toString, hparen _ ih]

/-- The canonical text of a spellable query within the limits compiles to the predicate of the
query. -/
theorem compile_toString {q : Query} (hq : q.isSpellable = true) {p : Predicate}
    (hp : schema.resolve q = .ok p)
    (hlength : q.toString.utf8ByteSize ≤ limits.maxQueryLength)
    (hheight : q.height ≤ min limits.maxDepth 256)
    (hopenings : ∀ n ∈ q.openings, n ≤ min limits.maxDepth 256) :
    compile limits schema q.toString = .ok p := by
  have hblank := isBlank_eq_false_of_mem q.colon_mem_toString rfl
  have hspells := (Query.spells_toString hq).loosen .whole (Level.whole_le _)
  exact compile_of_spells hblank hspells hp hlength ⟨hheight, hopenings⟩

/-! ## A small schema -/

/-- The schema with one text field, `a`, that is compared for equality. -/
def textSchema : Schema := FieldMap.empty.insert "a" ⟨.text, .equality⟩

/-- The check that `a` is a given name. -/
def nameCheck (name : String) : Predicate := .check ⟨"a", .equals (.identifier name)⟩

end FieldFilter
