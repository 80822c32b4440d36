/-!
# Maps from field names

A map from names to values whose entries are kept in strictly ascending order of their names, so
that two maps with the same entries are the same map and every listing of names is sorted. Looking
up after an insertion gives the inserted value under its name and the old value under any other.
-/

namespace FieldFilter

namespace FieldMap

/-- Put an entry at its place among sorted entries, over any entry of the same name. -/
def insertEntry {α : Type} (name : String) (value : α) :
    List (String × α) → List (String × α)
  | [] => [(name, value)]
  | (n, v) :: rest =>
    if name < n then (name, value) :: (n, v) :: rest
    else if name = n then (name, value) :: rest
    else (n, v) :: insertEntry name value rest

/-- The entries are in strictly ascending order of their names. -/
def Sorted {α : Type} (entries : List (String × α)) : Prop :=
  entries.Pairwise fun a b => a.1 < b.1

/-- What is in a list after an entry is the entry, or was there before. -/
theorem mem_insertEntry {α : Type} {name : String} {value : α} {entries : List (String × α)}
    {e : String × α} (h : e ∈ insertEntry name value entries) :
    e = (name, value) ∨ e ∈ entries := by
  induction entries with
  | nil => exact .inl (List.mem_singleton.1 h)
  | cons entry rest ih =>
    obtain ⟨n, v⟩ := entry
    unfold insertEntry at h
    split at h
    · exact List.mem_cons.1 h
    · split at h
      · exact (List.mem_cons.1 h).imp_right (List.mem_cons_of_mem _)
      · rcases List.mem_cons.1 h with h | h
        · exact .inr (h ▸ List.mem_cons_self)
        · exact (ih h).imp_right (List.mem_cons_of_mem _)

/-- A list stays sorted. -/
theorem Sorted.insertEntry {α : Type} {entries : List (String × α)} (h : Sorted entries)
    (name : String) (value : α) : Sorted (insertEntry name value entries) := by
  induction entries with
  | nil => exact List.pairwise_singleton _ _
  | cons entry rest ih =>
    obtain ⟨n, v⟩ := entry
    have hc := List.pairwise_cons.1 h
    unfold FieldMap.insertEntry
    split
    · rename_i hlt
      refine List.pairwise_cons.2 ⟨fun e he => ?_, h⟩
      rcases List.mem_cons.1 he with rfl | he
      · exact hlt
      · exact String.lt_trans hlt (hc.1 e he)
    · split
      · rename_i heq
        exact List.pairwise_cons.2 ⟨fun e he => heq ▸ hc.1 e he, hc.2⟩
      · rename_i hle hne
        have hlt : n < name := by
          rcases String.le_total n name with h' | h'
          · exact Decidable.byContradiction fun hn =>
              hne (String.le_antisymm (String.not_lt.1 hn) h')
          · exact absurd (String.le_antisymm (String.not_lt.1 hle) h') (Ne.symm hne)
        refine List.pairwise_cons.2 ⟨fun e he => ?_, ih hc.2⟩
        rcases mem_insertEntry he with rfl | he
        · exact hlt
        · exact hc.1 e he

end FieldMap

/-- A map from field names to values. -/
structure FieldMap (α : Type) where
  /-- The entries, in strictly ascending order of their names. -/
  entries : List (String × α)
  sorted : FieldMap.Sorted entries

namespace FieldMap

variable {α : Type}

instance [DecidableEq α] : DecidableEq (FieldMap α) := fun a b =>
  decidable_of_iff (a.entries = b.entries) ⟨fun h => by cases a; cases b; cases h; rfl, (· ▸ rfl)⟩

/-- The map without entries. -/
def empty : FieldMap α := ⟨[], .nil⟩

instance : Inhabited (FieldMap α) := ⟨empty⟩

/-- The value under a name. -/
def find? (m : FieldMap α) (name : String) : Option α := m.entries.lookup name

/-- The map with a value put under a name, in place of any value already there. -/
def insert (m : FieldMap α) (name : String) (value : α) : FieldMap α :=
  ⟨insertEntry name value m.entries, m.sorted.insertEntry name value⟩

/-- The map of a list of entries; of two entries with one name the later counts. -/
def ofList (entries : List (String × α)) : FieldMap α :=
  entries.foldl (fun m e => m.insert e.1 e.2) empty

/-- The names in ascending order. -/
def names (m : FieldMap α) : List String := m.entries.map (·.1)

/-- Whether there is a value under a name. -/
def contains (m : FieldMap α) (name : String) : Bool := (m.find? name).isSome

/-- The number of entries. -/
def size (m : FieldMap α) : Nat := m.entries.length

/-- Whether there are no entries. -/
def isEmpty (m : FieldMap α) : Bool := m.entries.isEmpty

/-- An entry is found under its name, and the others as before. -/
theorem lookup_insertEntry (name : String) (value : α) (entries : List (String × α))
    (other : String) :
    (insertEntry name value entries).lookup other =
      if other = name then some value else entries.lookup other := by
  induction entries with
  | nil =>
    by_cases h : other = name
    · simp [insertEntry, h]
    · have hb : (other == name) = false := by simpa using h
      simp [insertEntry, List.lookup_cons, h, hb]
  | cons entry rest ih =>
    obtain ⟨n, v⟩ := entry
    unfold insertEntry
    split
    · by_cases h : other = name
      · simp [h]
      · have hb : (other == name) = false := by simpa using h
        simp [List.lookup_cons, h, hb]
    · split
      · rename_i heq
        subst heq
        by_cases h : other = name
        · simp [h]
        · have hb : (other == name) = false := by simpa using h
          simp [List.lookup_cons, h, hb]
      · rename_i hne
        rw [List.lookup_cons, ih, List.lookup_cons]
        by_cases hn : other = n
        · have : other ≠ name := fun he => hne (he.symm.trans hn)
          simp [hn, Ne.symm hne]
        · have hb : (other == n) = false := by simpa using hn
          simp [hb]

/-- Looking up after an insertion. -/
@[simp] theorem find?_insert (m : FieldMap α) (name : String) (value : α) (other : String) :
    (m.insert name value).find? other = if other = name then some value else m.find? other :=
  lookup_insertEntry name value m.entries other

end FieldMap

end FieldFilter
