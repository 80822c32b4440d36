import FieldFilter.Configuration
import FieldFilter.Proofs.Document.Schema

/-!
# Configurations read back from documents

A configuration makes sense if its limits let queries through and its fields are sound. Documents
and the configurations that make sense correspond: such a configuration is read back from its own
text as itself, any other is refused there, and what is read from any text whatever makes sense and
can therefore be written and read again.
-/

namespace FieldFilter

open Json Json.Reader

/-- What a part and its default have in common holds of the part or its default. -/
theorem getD_of_forall_mem {α : Type} {P : α → Prop} {o : Option α} {d : α} (h : ∀ a ∈ o, P a)
    (hd : P d) : P (o.getD d) := by
  cases o with
  | none => exact hd
  | some a => exact h a rfl

/-! ## Limits -/

namespace Limits

/-- Both limits are numbers of 64 bits. -/
structure Fits (l : Limits) : Prop where
  maxQueryLength_lt : l.maxQueryLength < Numeral.significandBound
  maxDepth_lt : l.maxDepth < Numeral.significandBound

theorem fits_default : default.Fits := ⟨by decide, by decide⟩

/-- Written limits are read back, and take one level. -/
theorem reads (l : Limits) (levels : Nat) : Reads levels 1 (read levels) l.document l := by
  have hlength (n : Nat) : Reads n 0 (readMember (none, none) "max_query_len")
      [.colon, .number (.natural l.maxQueryLength)] (some l.maxQueryLength, none) :=
    ((Reads.natural _).memberValue "max_query_len").last (Reads.pure _)
  have hdepth (n : Nat) : Reads n 0 (readMember (some l.maxQueryLength, none) "max_depth")
      [.colon, .number (.natural l.maxDepth)] (some l.maxQueryLength, some l.maxDepth) :=
    ((Reads.natural _).memberValue "max_depth").last (Reads.pure _)
  exact Reads.structured hlength hdepth fun _ => Reads.pure l

theorem legible_document {l : Limits} (h : l.Fits) : Legible l.document := by
  have hnatural {n : Nat} (hn : n < Numeral.significandBound) : Legible [.number (.natural n)] :=
    .natural hn (by simp) .nil
  exact Legible.object (by
    simpa using ⟨hnatural h.maxQueryLength_lt, hnatural h.maxDepth_lt⟩)

/-- Limits that are put together from numbers of 64 bits fit, for the default limits do. -/
theorem fits_ofParts {maxQueryLength maxDepth : Option Nat}
    (h : ∀ n ∈ maxQueryLength, n < Numeral.significandBound)
    (h' : ∀ n ∈ maxDepth, n < Numeral.significandBound) :
    (ofParts maxQueryLength maxDepth).Fits := by
  constructor
  · exact getD_of_forall_mem h fits_default.maxQueryLength_lt
  · exact getD_of_forall_mem h' fits_default.maxDepth_lt

/-- Every document that yields limits yields limits that fit. -/
theorem yields_read (levels : Nat) : Yields Fits (read levels) := by
  let Parts (parts : Option Nat × Option Nat) : Prop :=
    (∀ n ∈ parts.1, n < Numeral.significandBound) ∧ ∀ n ∈ parts.2, n < Numeral.significandBound
  have hmember (state : Option Nat × Option Nat) (name : String) (hstate : Parts state) :
      Yields Parts (readMember state name) := by
    unfold readMember
    split
    · exact (Yields.memberValue _ _ Yields.natural).map fun _ h => ⟨h, hstate.2⟩
    · split
      · exact (Yields.memberValue _ _ Yields.natural).map fun _ h => ⟨hstate.1, h⟩
      · exact Yields.refuse _
  have hstart : Parts (none, none) := by
    constructor
    · intro n hn
      cases hn
    · intro n hn
      cases hn
  refine Yields.structured (fun _ => ?_) fun _ => ?_
  · exact (Yields.members hstart hmember).map fun parts h => fits_ofParts h.1 h.2
  · refine (Yields.element? true Yields.natural).bind fun _ h => ?_
    exact (Yields.element? false Yields.natural).map fun _ h' => fits_ofParts h h'

end Limits

/-! ## Configurations -/

namespace Configuration

/-- Queries can be accepted under the limits, and only text fields support patterns. -/
structure Sound (c : Configuration) : Prop where
  maxQueryLength_pos : 0 < c.limits.maxQueryLength
  maxDepth_pos : 0 < c.limits.maxDepth
  isSound : ∀ e ∈ c.schema.entries, e.2.isSound = true

/-- A written configuration is read back, unless one of its specifications is not sound. -/
theorem gives_read (n : Nat) (c : Configuration) :
    Gives (read (n + 3)) c.document (okUnless (Schema.fault? c.schema) c) := by
  have hlimits : Gives (readMember (n + 2) (none, none) "options") (.colon :: c.limits.document)
      (.ok (some c.limits, none)) := by
    have hvalue : Gives (Limits.read (n + 2)) c.limits.document (okUnless none c.limits) :=
      (c.limits.reads (n + 2)).gives (Nat.succ_pos _)
    exact (hvalue.memberValue "options").last (Gives.pure _)
  have hschema : Gives (readMember (n + 2) (some c.limits, none) "fields")
      (.colon :: Schema.document c.schema)
      (okUnless (Schema.fault? c.schema) (some c.limits, some c.schema)) :=
    ((Schema.gives_read n c.schema).memberValue "fields").last (Gives.pure _)
  have hdone : MemberRun (readMember (n + 2)) (some c.limits, some c.schema) []
      (okUnless none (some c.limits, some c.schema)) := .done _
  have hrun := MemberRun.step hlimits (MemberRun.stepUnless hschema hdone)
  rw [Option.or_none] at hrun
  have hmembers := hrun.gives
  exact Gives.structured (hmembers.last (Gives.pure c))

theorem legible_document {c : Configuration} (h : c.limits.Fits) : Legible c.document :=
  Legible.object (by simpa using ⟨Limits.legible_document h, Schema.legible_document c.schema⟩)

/-- Every document that yields a configuration yields limits that fit and fields that are sound. -/
theorem yields_read (levels : Nat) :
    Yields (fun c : Configuration => c.limits.Fits ∧ ∀ e ∈ c.schema.entries, e.2.isSound = true)
      (read levels) := by
  let Parts (parts : Option Limits × Option Schema) : Prop :=
    (∀ l ∈ parts.1, l.Fits) ∧ ∀ s ∈ parts.2, ∀ e ∈ s.entries, e.2.isSound = true
  have hmember (n : Nat) (state : Option Limits × Option Schema) (name : String)
      (hstate : Parts state) : Yields Parts (readMember n state name) := by
    unfold readMember
    split
    · exact (Yields.memberValue _ _ (Limits.yields_read n)).map fun _ h => ⟨h, hstate.2⟩
    · split
      · exact (Yields.memberValue _ _ (Schema.yields_read n)).map fun _ h => ⟨hstate.1, h⟩
      · exact Yields.refuse _
  have hstart : Parts (none, none) := by
    constructor
    · intro l hl
      cases hl
    · intro s hs
      cases hs
  have hdefault {o : Option Limits} (ho : ∀ l ∈ o, l.Fits) : (o.getD .default).Fits :=
    getD_of_forall_mem ho Limits.fits_default
  refine Yields.structured (fun n => ?_) fun n => ?_
  · refine (Yields.members hstart (hmember n)).bind fun parts h => ?_
    exact (Yields.require "fields" h.2).map fun _ hs => ⟨hdefault h.1, hs⟩
  · refine (Yields.element? true (Limits.yields_read n)).bind fun _ h => ?_
    exact (Yields.element false (Schema.yields_read n)).map fun _ hs => ⟨hdefault h, hs⟩

/-- A configuration is found valid exactly if neither of its limits is zero. -/
theorem validate_eq_ok_iff (c : Configuration) :
    c.validate = .ok () ↔ 0 < c.limits.maxQueryLength ∧ 0 < c.limits.maxDepth := by
  unfold validate
  split
  · rename_i hlength
    simp [hlength]
  · split
    · rename_i hdepth
      simp [hdepth]
    · rename_i hlength hdepth
      simp [Nat.pos_of_ne_zero hlength, Nat.pos_of_ne_zero hdepth]

/-- What becomes of the text of a configuration: the first specification that is not sound is
rejected, and then the limits are validated. -/
theorem ofJson_toJson {c : Configuration} (h : c.limits.Fits) :
    ofJson c.toJson =
      match Schema.fault? c.schema with
      | some fault => .error (.document fault)
      | none =>
        match c.validate with
        | .error e => .error (.configuration e)
        | .ok () => .ok c := by
  have hrun : run read c.toJson = okUnless (Schema.fault? c.schema) c :=
    run_spell (legible_document h) (c.gives_read 124)
  unfold ofJson
  rw [hrun]
  cases Schema.fault? c.schema <;> rfl

/-- A text that describes a configuration describes one that makes sense. -/
theorem sound_of_ofJson {text : String} {c : Configuration} (h : ofJson text = .ok c) :
    c.Sound ∧ c.limits.Fits := by
  unfold ofJson at h
  split at h
  · cases h
  · rename_i hrun
    split at h
    · cases h
    · rename_i hvalidate
      cases h
      obtain ⟨hfits, hsound⟩ := Yields.of_run (yields_read maxLevels) hrun
      obtain ⟨hlength, hdepth⟩ := c.validate_eq_ok_iff.1 hvalidate
      exact ⟨⟨hlength, hdepth, hsound⟩, hfits⟩

/-- A configuration that makes sense is read back from its text. -/
theorem ofJson_toJson_of_sound {c : Configuration} (hfits : c.limits.Fits) (h : c.Sound) :
    ofJson c.toJson = .ok c := by
  have hfault : Schema.fault? c.schema = none := (Schema.fault?_eq_none_iff _).2 h.isSound
  have hvalidate : c.validate = .ok () :=
    c.validate_eq_ok_iff.2 ⟨h.maxQueryLength_pos, h.maxDepth_pos⟩
  rw [ofJson_toJson hfits]
  simp only [hfault, hvalidate]

/-- A configuration that makes no sense is refused. -/
theorem exists_ofJson_toJson_of_not_sound {c : Configuration} (hfits : c.limits.Fits)
    (h : ¬c.Sound) : ∃ e, ofJson c.toJson = .error e := by
  cases hread : ofJson c.toJson with
  | error e => exact ⟨e, rfl⟩
  | ok c' =>
    rw [ofJson_toJson hfits] at hread
    cases hfault : Schema.fault? c.schema with
    | some fault =>
      simp only [hfault] at hread
      cases hread
    | none =>
      cases hvalidate : c.validate with
      | error e =>
        simp only [hfault, hvalidate] at hread
        cases hread
      | ok _ =>
        obtain ⟨hlength, hdepth⟩ := c.validate_eq_ok_iff.1 hvalidate
        exact absurd ⟨hlength, hdepth, (Schema.fault?_eq_none_iff _).1 hfault⟩ h

/-- Documents and configurations agree. A configuration with limits of 64 bits is read back from its
text exactly if it makes sense, and is refused otherwise; and whatever text describes a
configuration, it describes one that makes sense, whose own text describes it again. -/
theorem documents_agree :
    (∀ c : Configuration, c.limits.Fits →
      (c.Sound → ofJson c.toJson = .ok c) ∧ (¬c.Sound → ∃ e, ofJson c.toJson = .error e)) ∧
    ∀ (text : String) (c : Configuration), ofJson text = .ok c →
      c.Sound ∧ c.limits.Fits ∧ ofJson c.toJson = .ok c := by
  constructor
  · intro c hfits
    exact ⟨ofJson_toJson_of_sound hfits, exists_ofJson_toJson_of_not_sound hfits⟩
  · intro text c h
    obtain ⟨hsound, hfits⟩ := sound_of_ofJson h
    exact ⟨hsound, hfits, ofJson_toJson_of_sound hfits hsound⟩

/-- A text field that supports patterns makes sense, and a number field that supports patterns does
not. -/
theorem documents_agree_patterns :
    let text : Configuration :=
      ⟨.default, FieldMap.empty.insert "name" ⟨.text, .textPattern .contains⟩⟩
    let number : Configuration :=
      ⟨.default, FieldMap.empty.insert "size" ⟨.number, .textPattern .contains⟩⟩
    ofJson text.toJson = .ok text ∧ ∃ e, ofJson number.toJson = .error e := by
  intro text number
  have hsound : text.Sound := by
    refine ⟨by decide, by decide, fun e he => ?_⟩
    cases List.mem_singleton.1 he
    rfl
  have hnot : ¬number.Sound := by
    intro h
    cases h.isSound _ (List.mem_singleton.2 rfl)
  exact ⟨(documents_agree.1 text Limits.fits_default).1 hsound,
    (documents_agree.1 number Limits.fits_default).2 hnot⟩

end Configuration

end FieldFilter
