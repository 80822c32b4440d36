import FieldFilter.Json.Writer
import Mathlib.Data.List.Forall2

/-!
# Nesting of documents

How many objects and arrays of a document stand around one another shows in its brackets alone: it
is the greatest number of them that are open at once. A part that closes what it opens adds its own
nesting to what is open around it, so that the nesting of a written document follows from that of
its parts.
-/

namespace FieldFilter.Json

/-- The number of brackets that are open behind a lexeme. -/
def Lexeme.depthAfter (depth : Nat) : Lexeme → Nat
  | beginObject | beginArray => depth + 1
  | endObject | endArray => depth - 1
  | _ => depth

/-- The greatest number of brackets that are open at once, `depth` of them being open at first. -/
def deepest (depth : Nat) : List Lexeme → Nat
  | [] => depth
  | l :: ls => max depth (deepest (l.depthAfter depth) ls)

/-- The number of objects and arrays of a document that stand around one another. -/
def nesting (ls : List Lexeme) : Nat := deepest 0 ls

/-- What is open at the start counts. -/
theorem le_deepest (depth : Nat) (ls : List Lexeme) : depth ≤ deepest depth ls := by
  cases ls with
  | nil => exact Nat.le_refl _
  | cons l ls => exact Nat.le_max_left _ _

/-- The lexemes close the brackets that they open, of which `n` stand around one another. -/
def Nests (n : Nat) (ls : List Lexeme) : Prop :=
  ∀ depth rest, deepest depth (ls ++ rest) = max (depth + n) (deepest depth rest)

namespace Nests

variable {m n : Nat} {l : Lexeme} {ls ls' : List Lexeme}

/-- Balanced lexemes nest as deeply as said. -/
theorem nesting_eq (h : Nests n ls) : nesting ls = n := by
  have hwhole := h 0 []
  rw [List.append_nil] at hwhole
  rw [nesting, hwhole, deepest, Nat.zero_add, Nat.max_zero]

theorem nil : Nests 0 [] := by
  intro depth rest
  rw [List.nil_append, Nat.add_zero, Nat.max_eq_right (le_deepest depth rest)]

/-- Of two balanced stretches the deeper one counts. -/
theorem append (h : Nests m ls) (h' : Nests n ls') : Nests (max m n) (ls ++ ls') := by
  intro depth rest
  rw [List.append_assoc, h, h']
  omega

/-- A lexeme that is no bracket, in front of others. -/
theorem cons (hl : ∀ depth, l.depthAfter depth = depth) (h : Nests n ls) : Nests n (l :: ls) := by
  intro depth rest
  rw [List.cons_append, deepest, hl, h]
  omega

theorem singleton (hl : ∀ depth, l.depthAfter depth = depth) : Nests 0 [l] := cons hl nil

/-- A pair of brackets adds one. -/
theorem bracket {l' : Lexeme} (hl : ∀ depth, l.depthAfter depth = depth + 1)
    (hl' : ∀ depth, l'.depthAfter depth = depth - 1) (h : Nests n ls) :
    Nests (n + 1) (l :: ls ++ [l']) := by
  intro depth rest
  have hrest := le_deepest depth rest
  rw [List.append_assoc, List.cons_append, deepest, hl, h, List.cons_append, deepest, hl',
    Nat.add_sub_cancel, List.nil_append]
  omega

/-- Rows with commas between them nest as deep as the deepest of them. -/
theorem separate {ns : List Nat} {rows : List (List Lexeme)} (h : List.Forall₂ Nests ns rows) :
    Nests (ns.foldr max 0) (Writer.separate rows) := by
  induction h with
  | nil => exact nil
  | @cons n row ns rows hrow hrows ih =>
    cases hrows with
    | nil => simpa [Writer.separate] using hrow
    | cons => exact hrow.append (ih.cons fun _ => rfl)

/-- An array of values that nest `ns` deep. -/
theorem array (ns : List Nat) {values : List (List Lexeme)} (h : List.Forall₂ Nests ns values) :
    Nests (ns.foldr max 0 + 1) (Writer.array values) :=
  (separate h).bracket (fun _ => rfl) fun _ => rfl

/-- An object of values that nest `ns` deep. -/
theorem object (ns : List Nat) {members : List (String × List Lexeme)}
    (h : List.Forall₂ (fun n m => Nests n m.2) ns members) :
    Nests (ns.foldr max 0 + 1) (Writer.object members) := by
  have hrows : List.Forall₂ Nests ns (members.map fun m => Writer.member m.1 m.2) := by
    rw [List.forall₂_map_right_iff]
    exact h.imp fun n m hm => (hm.cons fun _ => rfl).cons fun _ => rfl
  exact (separate hrows).bracket (fun _ => rfl) fun _ => rfl

end Nests

end FieldFilter.Json
