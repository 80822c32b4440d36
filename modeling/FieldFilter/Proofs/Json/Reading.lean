import FieldFilter.Proofs.Json.Pieces

/-!
# Reading what was written

A reader gives an outcome on a row of lexemes if it ends in that outcome whatever follows the row:
with a value it has taken exactly these lexemes, with a fault it has stopped among them. Outcomes
compose as readers do, and an object of any number of members is read member by member, up to the
first that fails.

Most values only fail for want of levels. A reader with some levels left reads a row of lexemes as a
value that needs some levels: it takes the row if the levels suffice, and stops at a bracket too
many if they do not. The need of a whole is the largest need of its parts, with one more for every
bracket around them.
-/

namespace FieldFilter.Json

open Reader

variable {α β σ : Type} {levels need need' : Nat} {ls ls' : List Lexeme} {a : α}
  {o : Except Fault α} {e : Fault}

/-! ## Outcomes -/

/-- On these lexemes at the front of a document, the reader ends in the outcome. -/
def Gives (r : Reader α) (ls : List Lexeme) (o : Except Fault α) : Prop :=
  ∀ rest : List Piece, r (ls.map Piece.sound ++ rest) = o.map fun a => (a, rest)

/-- The value, unless there is a fault. -/
def okUnless (fault : Option Fault) (a : α) : Except Fault α := fault.elim (.ok a) .error

namespace Gives

/-- What is given without reading takes no lexemes. -/
theorem pure (a : α) : Gives (pure a) [] (.ok a) := fun _ => rfl

/-- A failure takes no lexemes. -/
theorem fail (e : Fault) : Gives (Reader.fail e : Reader α) [] (.error e) := fun _ => rfl

/-- What follows a value decides the outcome. -/
theorem bind {x : Reader α} {f : α → Reader β} {o : Except Fault β} (hx : Gives x ls (.ok a))
    (hf : Gives (f a) ls' o) : Gives (x >>= f) (ls ++ ls') o := by
  intro rest
  have hrun (s : List Piece) : (x >>= f) s = x s >>= fun out => f out.1 out.2 := rfl
  rw [hrun, List.map_append, List.append_assoc, hx]
  exact hf rest

/-- Nothing follows a fault. -/
theorem bind_error {x : Reader α} {f : α → Reader β} (hx : Gives x ls (.error e)) :
    Gives (x >>= f) (ls ++ ls') (.error e) := by
  intro rest
  have hrun (s : List Piece) : (x >>= f) s = x s >>= fun out => f out.1 out.2 := rfl
  rw [hrun, List.map_append, List.append_assoc, hx]
  rfl

/-! ### Single lexemes -/

/-- Whatever the next lexeme is, it is given. -/
theorem next (l : Lexeme) : Gives next [l] (.ok (.sound l)) := fun _ => rfl

/-- The lexeme that is expected is taken. -/
theorem expect (l : Lexeme) : Gives (expect l) [l] (.ok ()) := by
  have h : Gives (Reader.expect l) ([l] ++ []) (.ok ()) := by
    refine (next l).bind ?_
    rw [if_pos rfl]
    exact pure ()
  exact h

/-- A reader behind which nothing is taken any more, and nothing goes wrong. -/
theorem last {x : Reader α} {f : α → Reader β} {b : β} {fault : Option Fault}
    (hx : Gives x ls (okUnless fault a)) (hf : Gives (f a) [] (.ok b)) :
    Gives (x >>= f) ls (okUnless fault b) := by
  cases fault with
  | some e =>
    have h : Gives (x >>= f) (ls ++ []) (.error e) := hx.bind_error
    rwa [List.append_nil] at h
  | none =>
    have h : Gives (x >>= f) (ls ++ []) (.ok b) := hx.bind hf
    rwa [List.append_nil] at h

/-- The value of a member that has not been read before. -/
theorem memberValue {value : Reader α} {fault : Option Fault} (name : String)
    (h : Gives value ls (okUnless fault a)) :
    Gives (memberValue name none value) (.colon :: ls) (okUnless fault (some a)) :=
  (expect .colon).bind (h.last (pure (some a)))

end Gives

/-! ## Objects of any number of members -/

/-- How a state fares when it takes in written members one after the other. -/
inductive MemberRun (member : σ → String → Reader σ) :
    σ → List (String × List Lexeme) → Except Fault σ → Prop
  | done (s : σ) : MemberRun member s [] (.ok s)
  | step {s s' : σ} {name : String} {value : List Lexeme} {rows : List (String × List Lexeme)}
      {o : Except Fault σ} (h : Gives (member s name) (.colon :: value) (.ok s'))
      (hrest : MemberRun member s' rows o) : MemberRun member s ((name, value) :: rows) o
  | fail {s : σ} {name : String} {value : List Lexeme} {rows : List (String × List Lexeme)}
      {e : Fault} (h : Gives (member s name) (.colon :: value) (.error e)) :
      MemberRun member s ((name, value) :: rows) (.error e)

namespace MemberRun

variable {member : σ → String → Reader σ} {s s' : σ} {rows : List (String × List Lexeme)}
  {o : Except Fault σ} {steps : Nat}

/-- The first fault of a row of members is the fault of all of them. -/
theorem stepUnless {name : String} {value : List Lexeme} {fault fault' : Option Fault} {t : σ}
    (h : Gives (member s name) (.colon :: value) (okUnless fault s'))
    (hrest : MemberRun member s' rows (okUnless fault' t)) :
    MemberRun member s ((name, value) :: rows) (okUnless (fault.or fault') t) := by
  cases fault with
  | none => exact .step h hrest
  | some e => exact .fail h

/-- The members that follow another one, each behind a comma. -/
def later (rows : List (String × List Lexeme)) : List Lexeme :=
  rows.flatMap fun m => .comma :: Writer.member m.1 m.2

/-- Rows are written one behind the other, with a comma in front of each later one. -/
theorem separate_cons (row : List Lexeme) (rows : List (String × List Lexeme)) :
    Writer.separate (row :: rows.map fun m => Writer.member m.1 m.2) = row ++ later rows := by
  induction rows generalizing row with
  | nil => simp [Writer.separate, later]
  | cons m rows ih =>
    rw [List.map_cons, Writer.separate, ih]
    · rfl
    · simp

/-- Every later row has at least a comma. -/
theorem length_le_length_later (rows : List (String × List Lexeme)) :
    rows.length ≤ (later rows).length := by
  induction rows with
  | nil => exact Nat.le_refl _
  | cons m rows ih =>
    simp only [later, List.flatMap_cons, List.length_append, List.length_cons] at ih ⊢
    omega

/-- One member behind its name, and then the others. -/
theorem gives_member {name : String} {value : List Lexeme}
    (h : MemberRun member s ((name, value) :: rows) o)
    (hlater : ∀ {s'}, MemberRun member s' rows o →
      Gives (membersWithin member steps false s') (later rows ++ [.endObject]) o) :
    Gives (member s name >>= membersWithin member steps false)
      (.colon :: value ++ (later rows ++ [.endObject])) o := by
  cases h with
  | step hvalue hrest => exact hvalue.bind (hlater hrest)
  | fail hvalue => exact hvalue.bind_error

/-- Members that follow another one, if there are steps enough. -/
theorem gives_later (h : MemberRun member s rows o) (hsteps : rows.length < steps) :
    Gives (membersWithin member steps false s) (later rows ++ [.endObject]) o := by
  induction rows generalizing s steps with
  | nil =>
    obtain ⟨k, rfl⟩ := Nat.exists_eq_succ_of_ne_zero (Nat.ne_of_gt hsteps)
    have hend : Gives (nextMember false) [.endObject] (.ok none) := fun _ => rfl
    cases h
    exact hend.bind (Gives.pure s)
  | cons m rows ih =>
    obtain ⟨name, value⟩ := m
    obtain ⟨k, rfl⟩ := Nat.exists_eq_succ_of_ne_zero (Nat.ne_of_gt (Nat.zero_lt_of_lt hsteps))
    have hname : Gives (nextMember false) [.comma, .text name] (.ok (some name)) := fun _ => rfl
    have hrow : later ((name, value) :: rows) ++ [.endObject] =
        [.comma, .text name] ++ (.colon :: value ++ (later rows ++ [.endObject])) := by
      simp [later, Writer.member]
    rw [hrow]
    exact hname.bind (h.gives_member fun h => ih h (Nat.lt_of_succ_lt_succ hsteps))

/-- The members of a written object are read one after the other. -/
theorem gives (h : MemberRun member s rows o) :
    Gives (members member s)
      (Writer.separate (rows.map fun m => Writer.member m.1 m.2) ++ [.endObject]) o := by
  intro rest
  have hrun (ps : List Piece) : members member s ps =
      membersWithin member (ps.length + 1) true s ps := rfl
  rw [hrun]
  cases rows with
  | nil =>
    have hend : Gives (nextMember true) [.endObject] (.ok none) := fun _ => rfl
    cases h
    exact hend.bind (Gives.pure s) rest
  | cons m rows =>
    obtain ⟨name, value⟩ := m
    have hname : Gives (nextMember true) [.text name] (.ok (some name)) := fun _ => rfl
    have hwithin {steps : Nat} (hsteps : rows.length < steps) :
        Gives (membersWithin member (steps + 1) true s)
          (.text name :: (.colon :: value ++ (later rows ++ [.endObject]))) o :=
      hname.bind (h.gives_member fun h => h.gives_later hsteps)
    have hlength := length_le_length_later rows
    rw [List.map_cons, separate_cons, List.append_assoc]
    -- each of the rows has a lexeme of its own, so that the steps suffice
    refine hwithin ?_ rest
    simp only [Writer.member, List.length_append, List.length_map, List.length_cons]
    omega

end MemberRun

/-- A structure that was written as an object is read from it if there is a level left. -/
theorem Gives.structured {object array : Nat → Reader α} (h : Gives (object levels) ls o) :
    Gives (structured (levels + 1) object array) (.beginObject :: ls) o := h

/-- An object is read if there is a level left. -/
theorem Gives.object {members : Nat → Reader α} (h : Gives (members levels) ls o) :
    Gives (object (levels + 1) members) (.beginObject :: ls) o := h

/-! ## Needs -/

/-- With `levels` levels left, the reader takes the lexemes from the front of a document and yields
the value if `need` levels are not too many, and otherwise finds the document malformed. -/
def Reads (levels need : Nat) (r : Reader α) (ls : List Lexeme) (a : α) : Prop :=
  Gives r ls (if need ≤ levels then .ok a else .error .malformed)

namespace Reads

/-- With enough levels left, a reader gives the value. -/
theorem gives {r : Reader α} (h : Reads levels need r ls a) (hneed : need ≤ levels) :
    Gives r ls (.ok a) := by
  rwa [Reads, if_pos hneed] at h

/-- With too few levels left, the text is malformed to a reader. -/
theorem gives_error {r : Reader α} (h : Reads levels need r ls a) (hneed : ¬need ≤ levels) :
    Gives r ls (.error .malformed) := by
  rwa [Reads, if_neg hneed] at h

/-- A reader that opens nothing needs no levels. -/
theorem of_gives {r : Reader α} (h : Gives r ls (.ok a)) : Reads levels 0 r ls a := by
  rwa [Reads, if_pos (Nat.zero_le levels)]

/-- What is read without lexemes needs no levels. -/
theorem pure (a : α) : Reads levels 0 (pure a) [] a := of_gives (Gives.pure a)

/-- One reader after another needs what either of them needs. -/
theorem bind {x : Reader α} {f : α → Reader β} {b : β} (hx : Reads levels need x ls a)
    (hf : Reads levels need' (f a) ls' b) :
    Reads levels (max need need') (x >>= f) (ls ++ ls') b := by
  by_cases hneed : need ≤ levels
  · have hmax : max need need' ≤ levels ↔ need' ≤ levels := by omega
    simp only [Reads, hmax]
    exact (hx.gives hneed).bind hf
  · have hmax : ¬max need need' ≤ levels := by omega
    rw [Reads, if_neg hmax]
    exact (hx.gives_error hneed).bind_error

/-- A reader that needs no levels, in front of another one. -/
theorem step {x : Reader α} {f : α → Reader β} {b : β} (hx : Reads levels 0 x ls a)
    (hf : Reads levels need (f a) ls' b) : Reads levels need (x >>= f) (ls ++ ls') b := by
  have h := hx.bind hf
  rwa [Nat.zero_max] at h

/-- A reader behind which nothing is taken any more. -/
theorem last {x : Reader α} {f : α → Reader β} {b : β} (hx : Reads levels need x ls a)
    (hf : Reads levels 0 (f a) [] b) : Reads levels need (x >>= f) ls b := by
  have h := hx.bind hf
  rwa [Nat.max_zero, List.append_nil] at h

/-- What is made of a value needs no levels. -/
theorem map {x : Reader α} (hx : Reads levels need x ls a) (f : α → β) :
    Reads levels need (f <$> x) ls (f a) := by
  have h : Reads levels need (x >>= fun a => Pure.pure (f a)) ls (f a) := hx.last (pure (f a))
  exact fun rest => h rest

/-! ### Single lexemes -/

/-- A single lexeme needs no levels. -/
theorem next (l : Lexeme) : Reads levels 0 next [l] (.sound l) := of_gives (Gives.next l)

/-- An expected lexeme needs no levels. -/
theorem expect (l : Lexeme) : Reads levels 0 (expect l) [l] () := of_gives (Gives.expect l)

/-- A whole number needs no levels. -/
theorem natural (n : Nat) : Reads levels 0 natural [.number (.natural n)] n :=
  of_gives fun _ => rfl

/-- A text needs no levels. -/
theorem text (s : String) : Reads levels 0 text [.text s] s := of_gives fun _ => rfl

/-- A truth value needs no levels. -/
theorem boolean (b : Bool) : Reads levels 0 boolean [.boolean b] b := of_gives fun _ => rfl

/-- A name from a closed list stands for its value. -/
theorem lookUp {choices : List (String × α)} {name : String}
    (h : choices.lookup name = some a) : Reads levels 0 (lookUp choices name) [] a := by
  unfold Reader.lookUp
  rw [h]
  exact pure a

/-- A choice by its name needs no levels. -/
theorem choice {n : Nat} {choices : List (String × α)} {name : String}
    (h : choices.lookup name = some a) :
    Reads levels 0 (choice n choices) [.text name] a :=
  (next (.text name)).step (lookUp h)

/-- The value of a member that has not been read before. -/
theorem memberValue {value : Reader α} (name : String) (h : Reads levels need value ls a) :
    Reads levels need (memberValue name none value) (.colon :: ls) (some a) :=
  (expect .colon).step (h.last (pure (some a)))

/-! ### Arrays -/

/-- An element that does not look like the end of the array is found to be there: at once if it is
the first one, behind a comma if it is not. -/
theorem hasElement {l : Lexeme} (hne : l ≠ .endArray) (s : List Piece) :
    hasElement true (.sound l :: s) = .ok (true, .sound l :: s) ∧
    hasElement false (.sound .comma :: .sound l :: s) = .ok (true, .sound l :: s) := by
  cases l with
  | endArray => exact absurd rfl hne
  | _ => exact ⟨rfl, rfl⟩

/-- The first element of an array. -/
theorem element {value : Reader α} {l : Lexeme} (hl : ls.head? = some l) (hne : l ≠ .endArray)
    (h : Reads levels need value ls a) : Reads levels need (element true value) ls a := by
  obtain ⟨ls', rfl⟩ := List.head?_eq_some_iff.1 hl
  intro rest
  have hrun (s : List Piece) : Reader.element true value s =
      Reader.hasElement true s >>= fun out =>
        (if out.1 then value else refuse .wrongType) out.2 := rfl
  rw [hrun, List.map_cons, List.cons_append, (hasElement hne _).1]
  exact h rest

/-- An element behind another one. -/
theorem laterElement {value : Reader α} {l : Lexeme} (hl : ls.head? = some l)
    (hne : l ≠ .endArray) (h : Reads levels need value ls a) :
    Reads levels need (Reader.element false value) (.comma :: ls) a := by
  obtain ⟨ls', rfl⟩ := List.head?_eq_some_iff.1 hl
  intro rest
  have hrun (s : List Piece) : Reader.element false value s =
      Reader.hasElement false s >>= fun out =>
        (if out.1 then value else refuse .wrongType) out.2 := rfl
  rw [hrun, List.map_cons, List.map_cons, List.cons_append, List.cons_append,
    (hasElement hne _).2]
  exact h rest

/-- Behind an opening bracket one level less is left, and the bracket needs one more. -/
theorem opened {r : Nat → Reader α} {opening : Lexeme} (r' : Nat → Reader α)
    (hzero : ∀ s, r 0 (.sound opening :: s) = .error .malformed)
    (hsucc : ∀ n s, r (n + 1) (.sound opening :: s) = r' n s)
    (h : ∀ n, Reads n need (r' n) ls a) : Reads levels (need + 1) (r levels) (opening :: ls) a := by
  intro rest
  rw [List.map_cons, List.cons_append]
  cases levels with
  | zero =>
    rw [hzero, if_neg (by omega)]
    rfl
  | succ n =>
    rw [hsucc, h n rest]
    simp

/-- An array of a fixed number of elements. -/
theorem tuple {elements : Nat → Reader α} (h : ∀ n, Reads n need (elements n) ls a) :
    Reads levels (need + 1) (tuple levels elements) (.beginArray :: (ls ++ [.endArray])) a := by
  let close (a : α) : Reader α := do
    Reader.expect .endArray
    return a
  refine opened (r := fun n => Reader.tuple n elements) (fun n => elements n >>= close)
    (fun _ => rfl) (fun _ _ => rfl) fun n => ?_
  have hclose : Reads n 0 (close a) [.endArray] a := (expect .endArray).last (pure a)
  have hall := (h n).bind hclose
  rwa [Nat.max_zero] at hall

/-! ### Objects of two members -/

/-- Two members fare as well as the one of them that needs more levels. -/
theorem memberRun {member : σ → String → Reader σ} {start middle finish : σ}
    {name name' : String} (h : Reads levels need (member start name) (.colon :: ls) middle)
    (h' : Reads levels need' (member middle name') (.colon :: ls') finish) :
    MemberRun member start [(name, ls), (name', ls')]
      (if max need need' ≤ levels then .ok finish else .error .malformed) := by
  by_cases hneed : need ≤ levels
  · by_cases hneed' : need' ≤ levels
    · rw [if_pos (by omega)]
      exact .step (h.gives hneed) (.step (h'.gives hneed') (.done finish))
    · rw [if_neg (by omega)]
      exact .step (h.gives hneed) (.fail (h'.gives_error hneed'))
  · rw [if_neg (by omega)]
    exact .fail (h.gives_error hneed)

/-- A structure that was written as an object of two members. -/
theorem structured {member : Nat → σ → String → Reader σ} {close : σ → Reader α}
    {array : Nat → Reader α} {start middle finish : σ} {name name' : String}
    (h : ∀ n, Reads n need (member n start name) (.colon :: ls) middle)
    (h' : ∀ n, Reads n need' (member n middle name') (.colon :: ls') finish)
    (hclose : ∀ n, Reads n 0 (close finish) [] a) :
    Reads levels (max need need' + 1)
      (structured levels (fun n => Reader.members (member n) start >>= close) array)
      (Writer.object [(name, ls), (name', ls')]) a := by
  let object (n : Nat) : Reader α := Reader.members (member n) start >>= close
  refine opened (r := fun n => Reader.structured n object array) object (fun _ => rfl)
    (fun _ _ => rfl) fun n => ?_
  have hmembers : Reads n (max need need') (Reader.members (member n) start) _ finish :=
    (memberRun (h n) (h' n)).gives
  exact hmembers.last (hclose n)

end Reads

/-! ## Whole documents -/

/-- A written document is read with the outcome that its reader gives. -/
theorem run_spell {r : Nat → Reader α} (hls : Legible ls) (h : Gives (r maxLevels) ls o) :
    run r (Lexeme.spell ls) = o := by
  have hr := h []
  unfold run
  rw [pieces_spell hls]
  rw [List.append_nil] at hr
  rw [hr]
  cases o <;> rfl

end FieldFilter.Json
