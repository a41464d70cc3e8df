/-!
Tables: maps from names, kept in the order of the names.

The order is part of the type, so two tables with the same content are equal.
-/

namespace Conform

structure Table (α : Type) where
  entries : List (String × α)
  sorted : entries.Pairwise fun left right => left.1 < right.1

namespace Table

variable {α : Type}

def empty : Table α := ⟨[], .nil⟩

instance : Inhabited (Table α) := ⟨empty⟩

instance [BEq α] : BEq (Table α) := ⟨fun left right => left.entries == right.entries⟩

/-- Replaces the value of a name, or adds the name at its place. -/
def insertEntry (name : String) (value : α) : List (String × α) → List (String × α)
  | [] => [(name, value)]
  | (present, old) :: rest =>
      if name < present then (name, value) :: (present, old) :: rest
      else if present = name then (name, value) :: rest
      else (present, old) :: insertEntry name value rest

theorem mem_insertEntry {name : String} {value : α} {entries : List (String × α)}
    {entry : String × α} (member : entry ∈ insertEntry name value entries) :
    entry = (name, value) ∨ entry ∈ entries := by
  induction entries with
  | nil => simpa [insertEntry] using member
  | cons head rest ih =>
      obtain ⟨present, old⟩ := head
      simp only [insertEntry] at member
      split at member
      · simpa using member
      · split at member
        · rcases List.mem_cons.mp member with found | found
          · exact .inl found
          · exact .inr (List.mem_cons_of_mem _ found)
        · rcases List.mem_cons.mp member with found | found
          · exact .inr (found ▸ List.mem_cons_self)
          · exact (ih found).imp id (List.mem_cons_of_mem _)

theorem sorted_insertEntry {name : String} {value : α} {entries : List (String × α)}
    (sorted : entries.Pairwise fun left right => left.1 < right.1) :
    (insertEntry name value entries).Pairwise fun left right => left.1 < right.1 := by
  induction entries with
  | nil => simp [insertEntry]
  | cons head rest ih =>
      obtain ⟨present, old⟩ := head
      obtain ⟨above, restSorted⟩ := List.pairwise_cons.mp sorted
      simp only [insertEntry]
      split
      · rename_i before
        refine List.pairwise_cons.mpr ⟨fun entry member => ?_, sorted⟩
        rcases List.mem_cons.mp member with rfl | later
        · exact before
        · exact String.lt_trans before (above entry later)
      · rename_i notBefore
        split
        · rename_i same
          subst same
          exact List.pairwise_cons.mpr ⟨above, restSorted⟩
        · rename_i different
          refine List.pairwise_cons.mpr ⟨fun entry member => ?_, ih restSorted⟩
          rcases mem_insertEntry member with rfl | later
          · exact Decidable.not_not.mp fun notAbove =>
              different
                (String.le_antisymm (String.not_lt.mp notBefore) (String.not_lt.mp notAbove))
          · exact above entry later

def insert (table : Table α) (name : String) (value : α) : Table α :=
  ⟨insertEntry name value table.entries, sorted_insertEntry table.sorted⟩

def get? (table : Table α) (name : String) : Option α :=
  table.entries.lookup name

def contains (table : Table α) (name : String) : Bool :=
  (table.get? name).isSome

def names (table : Table α) : List String :=
  table.entries.map (·.1)

def size (table : Table α) : Nat :=
  table.entries.length

/-- Inserts entries one after the other: of a repeated name the last value
counts. -/
def ofList (entries : List (String × α)) : Table α :=
  entries.foldl (fun table (name, value) => table.insert name value) empty

end Table

end Conform
