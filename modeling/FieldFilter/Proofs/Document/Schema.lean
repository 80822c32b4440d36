import FieldFilter.Document.Schema
import FieldFilter.Proofs.Json.Reading
import FieldFilter.Proofs.Json.Yielding

/-!
# Schemas read back from documents

A specification is read back from its document as itself if it is sound, and is rejected if it wants
patterns of a field that is not text. A map of specifications is written in the order of its names,
so that reading puts every entry behind the ones before it and ends at the same map, or at the first
entry that is rejected. The other way round, no document yields a specification that is not sound.
-/

namespace FieldFilter

open Json Json.Reader

/-! ## Maps -/

namespace FieldMap

variable {α : Type}

/-- Maps with the same entries are the same. -/
@[ext] theorem ext {m m' : FieldMap α} (h : m.entries = m'.entries) : m = m' := by
  cases m
  cases m'
  cases h
  rfl

/-- A name behind all others is put at the end. -/
theorem insertEntry_of_forall_lt {name : String} (a : α) {entries : List (String × α)}
    (h : ∀ e ∈ entries, e.1 < name) : insertEntry name a entries = entries ++ [(name, a)] := by
  induction entries with
  | nil => rfl
  | cons entry rest ih =>
    obtain ⟨n, v⟩ := entry
    have hlt : n < name := h (n, v) List.mem_cons_self
    have hne : name ≠ n := by
      rintro rfl
      exact String.lt_irrefl name hlt
    rw [insertEntry, if_neg (String.lt_asymm hlt), if_neg hne,
      ih fun e he => h e (List.mem_cons_of_mem _ he)]
    rfl

/-- The fault of a map whose values may have faults: that of the first one. -/
def fault? (faultOf : α → Option Fault) (m : FieldMap α) : Option Fault :=
  m.entries.findSome? fun e => faultOf e.2

/-- Read a member of a map. -/
def readMember (value : Reader α) (m : FieldMap α) (name : String) : Reader (FieldMap α) := do
  expect .colon
  return m.insert name (← value)

section Written

variable {n : Nat} {value : Nat → Reader α} {document : α → List Lexeme}
  {faultOf : α → Option Fault}

/-- The entries in front have been read, and those behind are still to come. -/
theorem memberRun
    (h : ∀ a, Gives (value n) (document a) (okUnless (faultOf a) a)) {m front : FieldMap α}
    {back : List (String × α)} (hm : front.entries ++ back = m.entries) :
    MemberRun (readMember (value n)) front (back.map fun (name, a) => (name, document a))
      (okUnless (back.findSome? fun e => faultOf e.2) m) := by
  induction back generalizing front with
  | nil =>
    have hfront : front = m := by
      ext1
      rw [← hm, List.append_nil]
    rw [hfront]
    exact .done m
  | cons e back ih =>
    obtain ⟨name, a⟩ := e
    have hlt : ∀ e ∈ front.entries, e.1 < name := by
      have hsorted := m.sorted
      rw [← hm] at hsorted
      intro e he
      exact (List.pairwise_append.1 hsorted).2.2 e he _ List.mem_cons_self
    have hinsert : (front.insert name a).entries = front.entries ++ [(name, a)] :=
      insertEntry_of_forall_lt a hlt
    have hmember : Gives (readMember (value n) front name) (.colon :: document a)
        (okUnless (faultOf a) (front.insert name a)) :=
      (Gives.expect .colon).bind ((h a).last (Gives.pure (front.insert name a)))
    have hback : (front.insert name a).entries ++ back = m.entries := by
      rw [hinsert, List.append_assoc]
      exact hm
    have hfault : ((name, a) :: back).findSome? (fun e => faultOf e.2) =
        (faultOf a).or (back.findSome? fun e => faultOf e.2) := by
      rw [List.findSome?_cons]
      cases faultOf a <;> rfl
    rw [hfault]
    exact MemberRun.stepUnless hmember (ih hback)

/-- A map of written values is read back, unless one of them has a fault. -/
theorem gives_read (h : ∀ a, Gives (value n) (document a) (okUnless (faultOf a) a))
    (m : FieldMap α) : Gives (FieldMap.read (n + 1) value) (m.document document)
      (okUnless (m.fault? faultOf) m) := by
  have hmembers : Gives (members (readMember (value n)) empty) _
      (okUnless (m.fault? faultOf) m) := (memberRun h rfl).gives
  have hobject : Gives (object (n + 1) fun n => members (readMember (value n)) empty)
      (.beginObject :: _) (okUnless (m.fault? faultOf) m) := Gives.object hmembers
  exact hobject

theorem legible_document (h : ∀ a, Legible (document a)) (m : FieldMap α) :
    Legible (m.document document) := by
  refine Legible.object fun row hrow => ?_
  obtain ⟨e, _, rfl⟩ := List.mem_map.1 hrow
  exact h e.2

end Written

/-- What every value has, every value of a map has. -/
theorem yields_read {P : α → Prop} {value : Nat → Reader α} (h : ∀ n, Yields P (value n))
    (levels : Nat) :
    Yields (fun m : FieldMap α => ∀ e ∈ m.entries, P e.2) (FieldMap.read levels value) := by
  refine Yields.object fun n => Yields.members ?_ fun m name hm => ?_
  · intro e he
    cases he
  · refine (Yields.expect _).bind fun _ _ => (h n).map fun a ha e he => ?_
    rcases mem_insertEntry he with rfl | he
    · exact ha
    · exact hm e he

end FieldMap

/-! ## Specifications -/

namespace FieldSpec

/-- The fault of a specification that is not sound. -/
def fault? (s : FieldSpec) : Option Fault :=
  if s.isSound then none
  else some (.mismatch (.rejected (DraftError.patternsNeedText s.kind).message))

/-- The draft that a written specification is read as. -/
def draft (s : FieldSpec) : Draft :=
  match s.style with
  | .equality => ⟨s.kind, .equality, none⟩
  | .range => ⟨s.kind, .range, none⟩
  | .textPattern style => ⟨s.kind, .textPattern, some style⟩

/-- A specification stands for itself if it is sound, and for nothing otherwise. -/
theorem ofDraft_draft (s : FieldSpec) : ofDraft s.draft =
    if s.isSound then .ok s else .error (.patternsNeedText s.kind) := by
  obtain ⟨kind, style⟩ := s
  cases style with
  | equality | range => rfl
  | textPattern style => cases kind <;> rfl

/-- No draft stands for a specification that is not sound. -/
theorem isSound_of_ofDraft {d : Draft} {s : FieldSpec} (h : ofDraft d = .ok s) :
    s.isSound = true := by
  unfold ofDraft at h
  split at h
  · split at h
    · rename_i hkind
      cases h
      simp [isSound, hkind]
    · cases h
  · cases h
  · cases h
    rfl
  · cases h
    rfl

/-- The members of a written specification make up its draft. -/
theorem gives_readDraft (n : Nat) (s : FieldSpec) :
    Gives (readDraft (n + 1)) s.document (.ok s.draft) := by
  obtain ⟨kind, style⟩ := s
  have hkind : Value.Kind.names.lookup kind.name = some kind := by
    cases kind <;> rfl
  have hreadKind : Reads n 0 (readMember n ⟨none, none, none⟩ "kind") [.colon, .text kind.name]
      ⟨some kind, none, none⟩ := ((Reads.choice hkind).memberValue "kind").last (Reads.pure _)
  have hreadStyle {name : String} {style : StyleName} (h : styleNames.lookup name = some style) :
      Reads n 0 (readMember n ⟨some kind, none, none⟩ "style") [.colon, .text name]
        ⟨some kind, some style, none⟩ := ((Reads.choice h).memberValue "style").last (Reads.pure _)
  have hrun {name : String} {style : StyleName} (h : styleNames.lookup name = some style) :
      MemberRun (readMember n) ⟨none, none, none⟩
        [("kind", [.text kind.name]), ("style", [.text name])]
        (.ok ⟨some kind, some style, none⟩) :=
    .step (hreadKind.gives n.zero_le) (.step ((hreadStyle h).gives n.zero_le) (.done _))
  cases style with
  | equality => exact Gives.structured ((hrun rfl).gives.bind (Gives.pure _))
  | range => exact Gives.structured ((hrun rfl).gives.bind (Gives.pure _))
  | textPattern style =>
    have hmatch : MatchStyle.names.lookup style.name = some style := by
      cases style <;> rfl
    have hreadMatch : Reads n 0 (readMember n ⟨some kind, some .textPattern, none⟩ "match")
        [.colon, .text style.name] ⟨some kind, some .textPattern, some (some style)⟩ := by
      have hnullable : Reads n 0 (readMatchStyle n) [.text style.name] (some style) := by
        have h : Reads n 0 (do return some (← choice n MatchStyle.names)) [.text style.name]
            (some style) := (Reads.choice hmatch).last (Reads.pure _)
        exact fun rest => h rest
      exact (hnullable.memberValue "match").last (Reads.pure _)
    have hrun : MemberRun (readMember n) ⟨none, none, none⟩
        [("kind", [.text kind.name]), ("style", [.text "text_pattern"]),
          ("match", [.text style.name])]
        (.ok ⟨some kind, some .textPattern, some (some style)⟩) :=
      .step (hreadKind.gives n.zero_le) (.step ((hreadStyle rfl).gives n.zero_le)
        (.step (hreadMatch.gives n.zero_le) (.done _)))
    exact Gives.structured (hrun.gives.bind (Gives.pure _))

/-- A written specification is read back, unless it is not sound. -/
theorem gives_read (n : Nat) (s : FieldSpec) :
    Gives (read (n + 1)) s.document (okUnless s.fault? s) := by
  have hread : Gives (read (n + 1)) (s.document ++ []) (okUnless s.fault? s) := by
    refine (s.gives_readDraft n).bind ?_
    rw [ofDraft_draft, fault?]
    by_cases hs : s.isSound = true
    · rw [if_pos hs, if_pos hs]
      exact Gives.pure s
    · rw [if_neg hs, if_neg hs]
      exact Gives.fail _
  rwa [List.append_nil] at hread

theorem legible_document (s : FieldSpec) : Legible s.document := by
  obtain ⟨kind, style⟩ := s
  have htext (text : String) : Legible [.text text] := Legible.singleton rfl
  cases style with
  | equality | range => exact Legible.object (by simpa using ⟨htext _, htext _⟩)
  | textPattern style => exact Legible.object (by simpa using ⟨htext _, htext _, htext _⟩)

/-- No document yields a specification that is not sound. -/
theorem yields_read (levels : Nat) : Yields (fun s => s.isSound = true) (read levels) := by
  have hmember (n : Nat) (state : Members) (name : String) :
      Harmless (readMember n state name) := by
    unfold readMember
    split
    · exact (Yields.memberValue _ _ (Yields.choice n _)).map fun _ _ => trivial
    · split
      · exact (Yields.memberValue _ _ (Yields.choice n _)).map fun _ _ => trivial
      · split
        · exact (Yields.memberValue _ _ (Yields.nullable (Yields.choice n _))).map
            fun _ _ => trivial
        · exact Yields.refuse _
  have hobject (n : Nat) : Harmless (α := Draft) (do
      let m ← members (readMember n) ⟨none, none, none⟩
      return ⟨← require "kind" m.kind, ← require "style" m.style, m.matchStyle.join⟩) := by
    refine (Yields.members trivial fun state name _ => hmember n state name).bind fun m _ => ?_
    refine (Yields.require _ fun _ _ => trivial).bind fun _ _ => ?_
    exact (Yields.require _ fun _ _ => trivial).map fun _ _ => trivial
  have harray (n : Nat) : Harmless (α := Draft) (do
      let kind ← element true (choice n Value.Kind.names)
      let style ← element false (choice n styleNames)
      let matchStyle ← element? false (readMatchStyle n)
      return ⟨kind, style, matchStyle.join⟩) := by
    refine (Yields.element true (Yields.choice n _)).bind fun _ _ => ?_
    refine (Yields.element false (Yields.choice n _)).bind fun _ _ => ?_
    exact (Yields.element? false (Yields.nullable (Yields.choice n _))).map fun _ _ => trivial
  have hdraft : Harmless (readDraft levels) := Yields.structured hobject harray
  refine hdraft.bind fun d _ => ?_
  split
  · rename_i h
    exact Yields.pure (isSound_of_ofDraft h)
  · exact Yields.refuse _

end FieldSpec

namespace Schema

/-- The fault of a schema: that of its first specification that is not sound. -/
def fault? (s : Schema) : Option Fault := FieldMap.fault? FieldSpec.fault? s

/-- A schema has a fault exactly if one of its specifications is not sound. -/
theorem fault?_eq_none_iff (s : Schema) :
    fault? s = none ↔ ∀ e ∈ s.entries, e.2.isSound = true := by
  simp only [fault?, FieldMap.fault?, List.findSome?_eq_none_iff]
  refine forall₂_congr fun e _ => ?_
  simp [FieldSpec.fault?]

/-- A written schema is read back, unless one of its specifications is not sound. -/
theorem gives_read (n : Nat) (s : Schema) :
    Gives (read (n + 2)) s.document (okUnless s.fault? s) :=
  FieldMap.gives_read (fun spec => spec.gives_read n) s

theorem legible_document (s : Schema) : Legible s.document :=
  FieldMap.legible_document FieldSpec.legible_document s

/-- Every field of a schema that has been read is sound. -/
theorem yields_read (levels : Nat) :
    Yields (fun s : Schema => ∀ e ∈ s.entries, e.2.isSound = true) (read levels) :=
  FieldMap.yields_read FieldSpec.yields_read levels

end Schema

end FieldFilter
