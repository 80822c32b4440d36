import FieldFilter.Proofs.Compilation.Outcome

/-!
# Queries inside larger texts

A query that compiles alone can be put in parentheses and joined with others, or negated, by
writing text around it. The larger text means what the connective says, unless a limit on length or
depth stands against it.
-/

namespace FieldFilter

/-! ## Texts around texts -/

/-- Two texts in parentheses with a connective between them. -/
def joinedText (c : Connective) (a b : String) : String :=
  "(" ++ a ++ ") " ++ c.keyword ++ " (" ++ b ++ ")"

/-- A text in parentheses with `NOT` in front of it. -/
def negatedText (a : String) : String := "NOT (" ++ a ++ ")"

variable {a b : String} {q s : Query} {ds es : List Nat}

/-- Texts that spell queries spell the joined pair of the two, one level deeper. -/
theorem spells_joinedText (c : Connective) (ha : Spells .whole a.toList q ds)
    (hb : Spells .whole b.toList s es) :
    Spells .whole (joinedText c a b).toList (.join c q s)
      (ds.map (· + 1) ++ es.map (· + 1)) := by
  have htext : (joinedText c a b).toList = '(' :: (a.toList ++ [')']) ++
      ' ' :: (c.keyword.toList ++ ' ' :: '(' :: (b.toList ++ [')'])) := by
    simp [joinedText]
  have hleft := ha.group.loosen (.chain c) (Nat.le_succ_of_le c.precedence_le)
  have hright := hb.group.loosen c.operandLevel (by
    rw [c.precedence_operandLevel]
    exact Nat.succ_le_succ c.precedence_le)
  rw [htext]
  exact (hleft.joined hright).loosen .whole (Level.whole_le _)

/-- A text that spells a query spells its negation, two levels deeper. -/
theorem spells_negatedText (ha : Spells .whole a.toList q ds) :
    Spells .whole (negatedText a).toList (.not q) (ds.map (· + 1 + 1)) := by
  have htext : (negatedText a).toList = "NOT ".toList ++ '(' :: (a.toList ++ [')']) := by
    simp [negatedText]
  have hspells := ha.group.negation.loosen .whole (Level.whole_le _)
  rw [List.map_map] at hspells
  rw [htext]
  exact hspells

/-- Two texts that are joined are not blank, whatever they are. -/
theorem isBlank_joinedText (c : Connective) (a b : String) : isBlank (joinedText c a b) = false :=
  @isBlank_eq_false_of_mem _ '(' (by simp [joinedText]) rfl

/-- A text that is negated is not blank, whatever it is. -/
theorem isBlank_negatedText (a : String) : isBlank (negatedText a) = false :=
  @isBlank_eq_false_of_mem _ '(' (by simp [negatedText]) rfl

theorem joinedText_and (a b : String) :
    joinedText .and a b = "(" ++ a ++ ") AND (" ++ b ++ ")" := by
  rw [← String.toList_inj]
  simp [joinedText, Connective.keyword]

theorem joinedText_or (a b : String) :
    joinedText .or a b = "(" ++ a ++ ") OR (" ++ b ++ ")" := by
  rw [← String.toList_inj]
  simp [joinedText, Connective.keyword]

/-! ## Compiling them -/

variable {limits : Limits} {schema : Schema} {p r : Predicate}

/-- Queries are joined before they are resolved, or after. -/
theorem resolve_join (c : Connective) (hp : schema.resolve q = .ok p)
    (hr : schema.resolve s = .ok r) : schema.resolve (.join c q s) = .ok (.join c p r) := by
  simp [Schema.resolve, hp, hr, bind, Except.bind, pure, Except.pure]

/-- A query is negated before it is resolved, or after. -/
theorem resolve_not (hp : schema.resolve q = .ok p) : schema.resolve (.not q) = .ok (.not p) := by
  simp [Schema.resolve, hp, bind, Except.bind, pure, Except.pure]

/-- A query that compiles alone keeps its meaning inside a larger text. Two of them in parentheses
with a connective between them, or one of them negated, compile to the connected predicates unless
the larger text is too long or too deep for the limits. -/
theorem compile_composed (ha : isBlank a = false) (hb : isBlank b = false)
    (hp : compile limits schema a = .ok p) (hr : compile limits schema b = .ok r) :
    CompilesWithin limits schema ("(" ++ a ++ ") AND (" ++ b ++ ")") (.join .and p r) ∧
    CompilesWithin limits schema ("(" ++ a ++ ") OR (" ++ b ++ ")") (.join .or p r) ∧
    CompilesWithin limits schema ("NOT (" ++ a ++ ")") (.not p) := by
  obtain ⟨q, ds, hq, hqp, _⟩ := exists_spells_of_compile ha hp
  obtain ⟨s, es, hs, hsr, _⟩ := exists_spells_of_compile hb hr
  have hjoined (c : Connective) : CompilesWithin limits schema (joinedText c a b) (.join c p r) :=
    compilesWithin_of_spells (isBlank_joinedText c a b) (spells_joinedText c hq hs)
      (resolve_join c hqp hsr)
  have hnegated : CompilesWithin limits schema (negatedText a) (.not p) :=
    compilesWithin_of_spells (isBlank_negatedText a) (spells_negatedText hq) (resolve_not hqp)
  rw [← joinedText_and, ← joinedText_or]
  exact ⟨hjoined .and, hjoined .or, hnegated⟩

/-- A loose query and a negated one, composed. -/
theorem compile_composed_pair :
    isBlank "a:x OR a:y" = false ∧ isBlank "NOT a:x" = false ∧
    compile .default textSchema "a:x OR a:y" = .ok (.join .or (nameCheck "x") (nameCheck "y")) ∧
    compile .default textSchema "NOT a:x" = .ok (.not (nameCheck "x")) ∧
    CompilesWithin .default textSchema "(a:x OR a:y) AND (NOT a:x)"
      (.join .and (.join .or (nameCheck "x") (nameCheck "y")) (.not (nameCheck "x"))) := by
  let name (s : String) : Query := .leaf "a" (.equals (.identifier s))
  have ha : isBlank "a:x OR a:y" = false := rfl
  have hb : isBlank "NOT a:x" = false := rfl
  have hp : compile .default textSchema "a:x OR a:y" =
      .ok (.join .or (nameCheck "x") (nameCheck "y")) :=
    @compile_toString .default textSchema (.join .or (name "x") (name "y")) rfl _ rfl
      (by decide) (by decide) (by decide)
  have hr : compile .default textSchema "NOT a:x" = .ok (.not (nameCheck "x")) :=
    @compile_toString .default textSchema (.not (name "x")) rfl _ rfl
      (by decide) (by decide) (by decide)
  exact ⟨ha, hb, hp, hr, (compile_composed ha hb hp hr).1⟩

/-- Limits with two more levels and room for the longer text leave no doubt: what compiles alone
under other limits compiles to the connected predicates. -/
theorem compile_composed_of_room {limits' : Limits} (ha : isBlank a = false)
    (hb : isBlank b = false) (hp : compile limits schema a = .ok p)
    (hr : compile limits schema b = .ok r)
    (hdepth : min limits.maxDepth 256 + 2 ≤ min limits'.maxDepth 256)
    (hlength : a.utf8ByteSize + b.utf8ByteSize + 9 ≤ limits'.maxQueryLength) :
    (∀ c, compile limits' schema (joinedText c a b) = .ok (.join c p r)) ∧
    compile limits' schema (negatedText a) = .ok (.not p) := by
  obtain ⟨q, ds, hq, hqp, hqheight, hds⟩ := exists_spells_of_compile ha hp
  obtain ⟨s, es, hs, hsr, hsheight, hes⟩ := exists_spells_of_compile hb hr
  refine ⟨fun c => ?_, ?_⟩
  · refine compile_of_spells (isBlank_joinedText c a b) (spells_joinedText c hq hs)
      (resolve_join c hqp hsr) ?_ ⟨?_, ?_⟩
    · have hkeyword : c.keyword.utf8ByteSize ≤ 3 := by cases c <;> decide
      have hopening : "(".utf8ByteSize = 1 := rfl
      have hmiddle : ") ".utf8ByteSize = 2 ∧ " (".utf8ByteSize = 2 := ⟨rfl, rfl⟩
      have hclosing : ")".utf8ByteSize = 1 := rfl
      simp only [joinedText, String.utf8ByteSize_append]
      omega
    · rw [Query.height]
      omega
    · intro n hn
      rcases List.mem_append.1 hn with hn | hn
      · obtain ⟨m, hm, rfl⟩ := List.mem_map.1 hn
        have := hds m hm
        omega
      · obtain ⟨m, hm, rfl⟩ := List.mem_map.1 hn
        have := hes m hm
        omega
  · refine compile_of_spells (isBlank_negatedText a) (spells_negatedText hq) (resolve_not hqp)
      ?_ ⟨?_, ?_⟩
    · have hopening : "NOT (".utf8ByteSize = 5 := rfl
      have hclosing : ")".utf8ByteSize = 1 := rfl
      simp only [negatedText, String.utf8ByteSize_append]
      omega
    · rw [Query.height]
      omega
    · intro n hn
      obtain ⟨m, hm, rfl⟩ := List.mem_map.1 hn
      have := hds m hm
      omega

end FieldFilter
