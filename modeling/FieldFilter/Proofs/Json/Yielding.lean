import FieldFilter.Proofs.Json.Pieces

/-!
# What readers can yield

What is known of every piece of a document is passed on to what is read from it, whatever the
document says: every whole number among the pieces has 64 bits, and so has every whole number that a
reader yields. A reader is taken apart along its own program, one lemma for each common part of
documents.
-/

namespace FieldFilter.Json

open Reader

variable {α β σ : Type}

/-- From pieces that fit, the reader yields nothing but values with the property, and it leaves
pieces that fit. -/
def Yields (P : α → Prop) (r : Reader α) : Prop :=
  ∀ s a s', (∀ p ∈ s, p.Fits) → r s = .ok (a, s') → P a ∧ ∀ p ∈ s', p.Fits

/-- The reader leaves pieces that fit, and may yield anything. -/
abbrev Harmless (r : Reader α) : Prop := Yields (fun _ => True) r

variable {P : α → Prop} {Q : β → Prop}

namespace Yields

/-- What is yielded without reading is known beforehand. -/
theorem pure {a : α} (ha : P a) : Yields P (pure a) := by
  intro s b s' hs hr
  cases hr
  exact ⟨ha, hs⟩

/-- What one reader yields is known to the next one. -/
theorem bind {x : Reader α} {f : α → Reader β} (hx : Yields P x)
    (hf : ∀ a, P a → Yields Q (f a)) : Yields Q (x >>= f) := by
  intro s b s' hs hr
  have hrun : (x >>= f) s = x s >>= fun out => f out.1 out.2 := rfl
  rw [hrun] at hr
  cases hxs : x s with
  | error e =>
    rw [hxs] at hr
    cases hr
  | ok out =>
    rw [hxs] at hr
    obtain ⟨ha, hrest⟩ := hx s out.1 out.2 hs hxs
    exact hf out.1 ha out.2 b s' hrest hr

/-- A value is wrapped up. -/
theorem map {x : Reader α} {f : α → β} (hx : Yields P x) (hf : ∀ a, P a → Q (f a)) :
    Yields Q (do return f (← x)) :=
  hx.bind fun a ha => pure (hf a ha)

/-- A reader that fails yields nothing. -/
theorem fail (e : Fault) : Yields P (fail e) := by
  intro s a s' _ hr
  cases hr

/-- A reader that refuses what it has read yields nothing. -/
theorem refuse (cause : Mismatch) : Yields P (refuse cause) := fail _

private theorem wrongType (p : Piece) : Yields P (wrongType p) := by
  unfold Reader.wrongType
  split <;> exact fail _

/-! ## Single pieces -/

/-- The next piece fits, and so do those behind it. -/
theorem next : Yields Piece.Fits next := by
  intro s p s' hs hr
  cases s with
  | nil => cases hr
  | cons q s =>
    cases hr
    exact List.forall_mem_cons.1 hs

/-- A piece that is looked at fits, and nothing is taken. -/
theorem peek : Yields Piece.Fits peek := by
  intro s p s' hs hr
  cases s with
  | nil => cases hr
  | cons q s =>
    cases hr
    exact ⟨hs p List.mem_cons_self, hs⟩

/-- One lexeme is taken and nothing is yielded. -/
theorem expect (lexeme : Lexeme) : Harmless (expect lexeme) := by
  refine next.bind fun p _ => ?_
  split
  · exact pure trivial
  · exact fail _

/-- A whole number that is read has 64 bits. -/
theorem natural : Yields (· < Numeral.significandBound) natural := by
  refine next.bind fun p hp => ?_
  split
  · exact pure (hp _ rfl)
  · exact wrongType _

private theorem null : Harmless null := by
  refine next.bind fun p _ => ?_
  split
  · exact pure trivial
  · exact wrongType _

/-- Taking a null for nothing does no harm to a reader. -/
theorem nullable {value : Reader α} (h : Harmless value) : Harmless (nullable value) := by
  refine peek.bind fun p _ => ?_
  split
  · exact next.map fun _ _ => trivial
  · exact fail _
  · exact h.map fun _ _ => trivial

private theorem lookUp (choices : List (String × α)) (name : String) :
    Harmless (lookUp choices name) := by
  unfold Reader.lookUp
  split
  · exact pure trivial
  · exact refuse _

private theorem memberName (p : Piece) : Harmless (memberName p) := by
  unfold Reader.memberName
  split
  · exact pure trivial
  · exact fail _
  · exact fail _

/-- A name among choices is read as a text or as the name of a variant, and holds no number. -/
theorem choice (levels : Nat) (choices : List (String × α)) : Harmless (choice levels choices) := by
  have hvariant : Harmless (do
      let a ← Reader.lookUp choices (← Reader.memberName (← Reader.next))
      Reader.expect .colon
      Reader.null
      Reader.expect .endObject
      return a) := by
    refine next.bind fun p _ => (memberName p).bind fun name _ => ?_
    refine (lookUp choices name).bind fun a _ => (expect _).bind fun _ _ => ?_
    exact null.bind fun _ _ => (expect _).map fun _ _ => trivial
  refine next.bind fun p _ => ?_
  split
  · exact lookUp choices _
  · split
    · exact fail _
    · exact hvariant
  · exact fail _
  · exact fail _

/-! ## Objects -/

/-- The name of the next member holds no number, whatever separates it from the last one. -/
theorem nextMember (isFirst : Bool) : Harmless (nextMember isFirst) := by
  have hname (p : Piece) : Harmless (do return some (← Reader.memberName p)) :=
    (memberName p).map fun _ _ => trivial
  refine next.bind fun p _ => ?_
  split
  · exact pure trivial
  · split
    · exact fail _
    · exact next.bind fun p _ => hname p
  · split
    · exact hname p
    · exact fail _

/-- What every member preserves holds at the end of an object. -/
theorem members {I : σ → Prop} {member : σ → String → Reader σ} {start : σ} (hstart : I start)
    (hmember : ∀ state name, I state → Yields I (member state name)) :
    Yields I (members member start) := by
  have hwithin (steps : Nat) (isFirst : Bool) (state : σ) (hstate : I state) :
      Yields I (membersWithin member steps isFirst state) := by
    induction steps generalizing isFirst state with
    | zero => exact fail _
    | succ steps ih =>
      refine (nextMember isFirst).bind fun name _ => ?_
      cases name with
      | none => exact pure hstate
      | some name => exact (hmember state name hstate).bind fun state hstate => ih _ state hstate
  intro s a s' hs hr
  exact hwithin (s.length + 1) true start hstart s a s' hs hr

/-- A property of a value as one of a member that may be missing. -/
theorem memberValue {value : Reader α} (name : String) (earlier : Option α) (h : Yields P value) :
    Yields (fun o : Option α => ∀ a ∈ o, P a) (memberValue name earlier value) := by
  unfold Reader.memberValue
  split
  · exact refuse _
  · refine (expect _).bind fun _ _ => h.map fun a ha b hb => ?_
    cases hb
    exact ha

/-- A member that must be there has the property that it has where it is. -/
theorem require {o : Option α} (name : String) (h : ∀ a ∈ o, P a) : Yields P (require name o) := by
  cases o with
  | none => exact refuse _
  | some a => exact pure (h a rfl)

/-! ## Arrays -/

/-- Looking for a further element takes a comma at most. -/
theorem hasElement (isFirst : Bool) : Harmless (hasElement isFirst) := by
  refine peek.bind fun p _ => ?_
  split
  · exact pure trivial
  · split
    · exact pure trivial
    · split
      · refine next.bind fun _ _ => peek.bind fun q _ => ?_
        split
        · exact fail _
        · exact pure trivial
      · exact fail _

/-- A property of a value as one of an element that may be missing. -/
theorem element? {value : Reader α} (isFirst : Bool) (h : Yields P value) :
    Yields (fun o : Option α => ∀ a ∈ o, P a) (element? isFirst value) := by
  refine (hasElement isFirst).bind fun b _ => ?_
  split
  · refine h.map fun a ha b hb => ?_
    cases hb
    exact ha
  · refine pure fun a ha => ?_
    cases ha

/-- An element that must be there has the property of the value. -/
theorem element {value : Reader α} (isFirst : Bool) (h : Yields P value) :
    Yields P (element isFirst value) := by
  refine (hasElement isFirst).bind fun b _ => ?_
  split
  · exact h
  · exact refuse _

/-! ## Brackets -/

/-- What holds of the members, however deep they are, holds of the object. -/
theorem object {levels : Nat} {members : Nat → Reader α} (h : ∀ n, Yields P (members n)) :
    Yields P (object levels members) := by
  refine next.bind fun p _ => ?_
  split
  · split
    · exact fail _
    · exact h _
  · exact wrongType _

/-- What holds of a value in the form of an object and of an array holds in either form. -/
theorem structured {levels : Nat} {object array : Nat → Reader α} (h : ∀ n, Yields P (object n))
    (h' : ∀ n, Yields P (array n)) : Yields P (structured levels object array) := by
  refine next.bind fun p _ => ?_
  split
  · split
    · exact fail _
    · exact h _
  · split
    · exact fail _
    · exact (h' _).bind fun a ha => (expect _).map fun _ _ => ha
  · exact wrongType _

/-- Whatever a text says, a value that it describes has the property. -/
theorem of_run {r : Nat → Reader α} {text : String} {a : α} (h : Yields P (r maxLevels))
    (hrun : run r text = .ok a) : P a := by
  unfold run at hrun
  split at hrun
  · cases hrun
  · rename_i hr
    cases hrun
    exact (h _ _ _ fits_of_mem_pieces hr).1
  · cases hrun

end Yields

end FieldFilter.Json
