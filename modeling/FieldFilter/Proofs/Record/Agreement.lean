import FieldFilter.Proofs.Value.Meaning
import FieldFilter.Record

/-!
# Records that a predicate cannot tell apart

A predicate asks a record for the fields that it mentions, and of each of them for what its value
says. Records whose values say the same there get the same answer, also from a predicate that says
the same in other words. Fields that are not mentioned, the scales of numbers and the spelling of
text make no difference.
-/

namespace FieldFilter

/-! ## Saying the same -/

/-- The tests are of one form, with one operator or pattern, and their values are the same. -/
inductive Test.Same : Test → Test → Prop
  | equals {v w : Value} (hvalue : v.sameAs w = true) : Same (.equals v) (.equals w)
  | within {r s : Range} (hlower : r.lower.sameAs s.lower = true)
      (hupper : r.upper.sameAs s.upper = true) : Same (.within r) (.within s)
  | fits (pattern : Pattern) : Same (.fits pattern) (.fits pattern)
  | compares (op : Comparison) {v w : Value} (hvalue : v.sameAs w = true) :
      Same (.compares op v) (.compares op w)

namespace Predicate

/-- The predicates have the same nodes, and in the same places checks of the same fields by tests
whose values are the same. -/
inductive Same : Predicate → Predicate → Prop
  | check (field : String) {t u : Test} (htest : t.Same u) :
      Same (.check ⟨field, t⟩) (.check ⟨field, u⟩)
  | join (c : Connective) {p q p' q' : Predicate} (hleft : Same p p') (hright : Same q q') :
      Same (.join c p q) (.join c p' q')
  | not {p p' : Predicate} (hoperand : Same p p') : Same (.not p) (.not p')
  | always (answer : Bool) : Same (.always answer) (.always answer)

/-- The predicate has a check of the field. -/
def Mentions (p : Predicate) (field : String) : Prop := ∃ c ∈ p.checks, c.field = field

theorem Mentions.join_left {p : Predicate} {field : String} (h : p.Mentions field)
    (c : Connective) (q : Predicate) : (join c p q).Mentions field :=
  h.imp fun _ hcheck => ⟨List.mem_append_left _ hcheck.1, hcheck.2⟩

theorem Mentions.join_right {q : Predicate} {field : String} (h : q.Mentions field)
    (c : Connective) (p : Predicate) : (join c p q).Mentions field :=
  h.imp fun _ hcheck => ⟨List.mem_append_right _ hcheck.1, hcheck.2⟩

end Predicate

/-- Both records lack the field, or their values under it are the same. -/
def Record.SameAt (r s : Record) (field : String) : Prop :=
  Option.Rel (fun v w => v.sameAs w = true) (r.find? field) (s.find? field)

/-! Everything is the same as itself. -/

/-- Every value is the same as itself. -/
theorem Value.sameAs_self (v : Value) : v.sameAs v = true := sameAs_iff.2 rfl

/-- Every test is the same as itself. -/
theorem Test.Same.refl (t : Test) : t.Same t := by
  cases t with
  | equals v => exact .equals v.sameAs_self
  | within r => exact .within r.lower.sameAs_self r.upper.sameAs_self
  | fits pattern => exact .fits pattern
  | compares op v => exact .compares op v.sameAs_self

/-- Every predicate is the same as itself. -/
theorem Predicate.Same.refl (p : Predicate) : p.Same p := by
  induction p with
  | check c => exact .check c.field (.refl c.test)
  | join c _ _ ihl ihr => exact .join c ihl ihr
  | not _ ih => exact .not ih
  | always answer => exact .always answer

/-- Records that find the same in a field are the same at it. -/
theorem Record.SameAt.of_find?_eq {r s : Record} {field : String}
    (h : r.find? field = s.find? field) : r.SameAt s field := by
  unfold SameAt
  rw [h]
  cases s.find? field with
  | none => exact .none
  | some v => exact .some v.sameAs_self

/-! ## Answers -/

/-- A test looks at what a value says, and at what its own values say. -/
theorem Test.Same.holds_eq {t u : Test} (h : t.Same u) {v w : Value}
    (hv : v.meaning = w.meaning) : t.holds v = u.holds w := by
  cases h with
  | equals hvalue =>
    simp only [holds, Value.sameAs, Value.compare?_eq, hv, Value.sameAs_iff.1 hvalue]
  | within hlower hupper =>
    simp only [holds, Range.contains, Value.compare?_eq, hv, Value.sameAs_iff.1 hlower,
      Value.sameAs_iff.1 hupper]
  | fits pattern => simp only [holds, Value.text?_eq, hv]
  | compares op hvalue => simp only [holds, Value.compare?_eq, hv, Value.sameAs_iff.1 hvalue]

/-- Records that are the same at a field answer the same checks of it alike. -/
theorem Record.SameAt.answer_eq {r s : Record} {field : String} (h : r.SameAt s field)
    {t u : Test} (ht : t.Same u) : r.answer ⟨field, t⟩ = s.answer ⟨field, u⟩ := by
  unfold SameAt at h
  unfold answer
  dsimp only
  generalize r.find? field = left at h ⊢
  generalize s.find? field = right at h ⊢
  cases h with
  | none => rfl
  | some hv => exact ht.holds_eq (Value.sameAs_iff.1 hv)

/-- The same predicate accepts records that are the same at the fields that it mentions, or refuses
them both. -/
theorem Predicate.Same.accepts_eq {p q : Predicate} (h : p.Same q) {r s : Record}
    (hr : ∀ field, p.Mentions field → r.SameAt s field) : p.accepts r = q.accepts s := by
  unfold accepts
  induction h with
  | check field htest => exact (hr field ⟨_, List.mem_singleton_self _, rfl⟩).answer_eq htest
  | join c _ _ ihl ihr =>
    have hleft := ihl fun field hfield => hr field (hfield.join_left c _)
    have hright := ihr fun field hfield => hr field (hfield.join_right c _)
    rw [eval, eval, hleft, hright]
  | not _ ih => rw [eval, eval, ih hr]
  | always answer => rfl

namespace Predicate

/-- A value may be put in the place of one that is the same. -/
theorem accepts_insert_of_sameAs (p : Predicate) {r : Record} {field : String} {v w : Value}
    (hv : r.find? field = some v) (hsame : w.sameAs v = true) :
    p.accepts (r.insert field w) = p.accepts r := by
  refine (Same.refl p).accepts_eq fun other _ => ?_
  by_cases hother : other = field
  · subst hother
    unfold Record.SameAt
    rw [FieldMap.find?_insert, if_pos rfl, hv]
    exact .some hsame
  · refine .of_find?_eq ?_
    rw [FieldMap.find?_insert, if_neg hother]

/-- A value may be put under a field that is not mentioned. -/
theorem accepts_insert_of_not_mentions {p : Predicate} {field : String} (h : ¬p.Mentions field)
    (r : Record) (v : Value) : p.accepts (r.insert field v) = p.accepts r := by
  refine (Same.refl p).accepts_eq fun other hother => .of_find?_eq ?_
  have hne : other ≠ field := fun heq => h (heq ▸ hother)
  rw [FieldMap.find?_insert, if_neg hne]

/-- What a predicate answers depends only on what it says and on what the record says in the fields
that are mentioned. Predicates of the same shape, fields, operators and patterns whose values are
the same answer alike on records that are the same at the mentioned fields. So a field that is not
mentioned may be set, a stored number may get another scale, and stored text may be kept as a bare
word in place of a quoted one. -/
theorem accepts_eq_of_same :
    (∀ (p q : Predicate) (r s : Record), p.Same q →
      (∀ field, p.Mentions field → r.SameAt s field) → p.accepts r = q.accepts s) ∧
    (∀ (p : Predicate) (r : Record) (field : String) (v : Value), ¬p.Mentions field →
      p.accepts (r.insert field v) = p.accepts r) ∧
    (∀ (p : Predicate) (r : Record) (field : String) (d d' : Decimal),
      r.find? field = some (.number d) → d'.toRat = d.toRat →
      p.accepts (r.insert field (.number d')) = p.accepts r) ∧
    ∀ (p : Predicate) (r : Record) (field text : String),
      r.find? field = some (.quoted text) →
      p.accepts (r.insert field (.identifier text)) = p.accepts r := by
  refine ⟨fun p q r s hp hr => hp.accepts_eq hr, ?_, ?_, ?_⟩
  · intro p r field v h
    exact accepts_insert_of_not_mentions h r v
  · intro p r field d d' hd hnumber
    have hsame : (Value.number d').sameAs (.number d) = true :=
      Value.sameAs_iff.2 (congrArg Meaning.number hnumber)
    exact p.accepts_insert_of_sameAs hd hsame
  · intro p r field text htext
    have hsame : (Value.identifier text).sameAs (.quoted text) = true := Value.sameAs_iff.2 rfl
    exact p.accepts_insert_of_sameAs htext hsame

/-- The check that the size is at least some number and the name is not some text. -/
def sizeAndName (size : Decimal) (name : Value) : Predicate :=
  .join .and (.check ⟨"size", .compares .atLeast (.number size)⟩)
    (.not (.check ⟨"name", .equals name⟩))

/-- The record of a size and a name. -/
def sizedItem (size : Decimal) (name : Value) : Record :=
  (FieldMap.empty.insert "size" (.number size)).insert "name" name

/-- The number `1.5` and the number `1.50`, the bare word `x` and the quoted one, on either side. -/
theorem accepts_eq_of_same_sizeAndName :
    let short : Decimal := ⟨false, 15, 1, by decide, by decide⟩
    let long : Decimal := ⟨false, 150, 2, by decide, by decide⟩
    let p := sizeAndName short (.identifier "x")
    let q := sizeAndName long (.quoted "x")
    let r := sizedItem long (.quoted "x")
    let s := (sizedItem short (.identifier "x")).insert "note" (.boolean true)
    p.Same q ∧ (∀ field, p.Mentions field → r.SameAt s field) ∧ p.accepts r = q.accepts s ∧
    ¬p.Mentions "note" ∧ p.accepts (r.insert "note" (.boolean true)) = p.accepts r ∧
    r.find? "size" = some (.number long) ∧ short.toRat = long.toRat ∧
      p.accepts (r.insert "size" (.number short)) = p.accepts r ∧
    r.find? "name" = some (.quoted "x") ∧
      p.accepts (r.insert "name" (.identifier "x")) = p.accepts r := by
  intro short long p q r s
  have hsame : p.Same q :=
    .join .and (.check "size" (.compares .atLeast (by decide)))
      (.not (.check "name" (.equals (by decide))))
  have hmentions (field : String) (h : p.Mentions field) : field = "size" ∨ field = "name" := by
    obtain ⟨check, hcheck, rfl⟩ := h
    rcases List.mem_cons.1 hcheck with rfl | hcheck
    · exact .inl rfl
    · obtain rfl := List.mem_singleton.1 hcheck
      exact .inr rfl
  have hrecords (field : String) (h : p.Mentions field) : r.SameAt s field := by
    rcases hmentions field h with rfl | rfl
    · exact .some (by decide)
    · exact .some (by decide)
  have hnote : ¬p.Mentions "note" := by
    intro h
    rcases hmentions "note" h with h | h
    · exact absurd h (by decide)
    · exact absurd h (by decide)
  have hsize : r.find? "size" = some (.number long) := by decide
  have hnumber : short.toRat = long.toRat := Decimal.compare_eq_eq_iff.1 (by decide)
  have hname : r.find? "name" = some (.quoted "x") := by decide
  obtain ⟨hall, hunmentioned, hscale, hspelling⟩ := accepts_eq_of_same
  exact ⟨hsame, hrecords, hall p q r s hsame hrecords, hnote,
    hunmentioned p r "note" (.boolean true) hnote, hsize, hnumber,
    hscale p r "size" long short hsize hnumber, hname, hspelling p r "name" "x" hname⟩

end Predicate

end FieldFilter
