import Mathlib.Data.List.Induction
import Conform.Proofs.Value.Reordered

/-! Objects as maps.  What inserts make of an object is told by its keys, in the order in which they
came first, and by what is found under each, which came last. -/

namespace Conform.Object

variable {object other : Object} {key : String} {value : Value} {entries : List (String × Value)}

theorem size_eq (object : Object) : object.size = object.keys.length :=
  (List.length_map _).symm

theorem keys_insertEntry (key : String) (value : Value) (entries : List (String × Value)) :
    (insertEntry key value entries).map (·.1) =
      if key ∈ entries.map (·.1) then entries.map (·.1) else entries.map (·.1) ++ [key] := by
  induction entries with
  | nil => rfl
  | cons entry rest ih =>
      obtain ⟨present, old⟩ := entry
      by_cases same : present = key
      · simp [insertEntry, same]
      · have differ : ¬ key = present := fun back => same back.symm
        simp only [insertEntry, same, if_false, List.map_cons, ih, List.mem_cons, differ, false_or]
        split <;> rfl

theorem keys_insert (object : Object) (key : String) (value : Value) : (object.insert key value).keys =
    if key ∈ object.keys then object.keys else object.keys ++ [key] :=
  keys_insertEntry key value object.entries

theorem lookup_entry (key other : String) (value : Value) (rest : List (String × Value)) :
    ((key, value) :: rest).lookup other = if other = key then some value else rest.lookup other := by
  rw [List.lookup_cons]
  by_cases same : other = key
  · simp [same]
  · simp [beq_eq_false_iff_ne.mpr same, same]

theorem lookup_insertEntry (key other : String) (value : Value) (entries : List (String × Value)) :
    (insertEntry key value entries).lookup other =
      if other = key then some value else entries.lookup other := by
  induction entries with
  | nil => exact lookup_entry key other value []
  | cons entry rest ih =>
      obtain ⟨present, old⟩ := entry
      by_cases here : present = key
      · subst here
        simp only [insertEntry, if_true, lookup_entry]
        split <;> rfl
      · simp only [insertEntry, here, if_false, lookup_entry, ih]
        by_cases same : other = key
        · simp [same, Ne.symm here]
        · simp [same]

theorem get?_insert (object : Object) (key other : String) (value : Value) :
    (object.insert key value).get? other = if other = key then some value else object.get? other :=
  lookup_insertEntry key other value object.entries

theorem WellFormed.insert (distinct : object.WellFormed) (key : String) (value : Value) :
    (object.insert key value).WellFormed := by
  rw [WellFormed, keys_insert]
  split
  next => exact distinct
  next fresh =>
    refine List.nodup_append.mpr ⟨distinct, List.nodup_singleton key, fun _ listed _ added => ?_⟩
    rintro rfl
    exact fresh (List.mem_singleton.mp added ▸ listed)

theorem ofList_append (entries : List (String × Value)) (key : String) (value : Value) :
    ofList (entries ++ [(key, value)]) = (ofList entries).insert key value := by
  simp [ofList]

theorem wellFormed_ofList (entries : List (String × Value)) : (ofList entries).WellFormed := by
  induction entries using List.reverseRecOn with
  | nil => exact List.nodup_nil
  | append_singleton entries entry ih =>
      rw [ofList_append]
      exact ih.insert entry.1 entry.2

/-- A key has its place where it is inserted first. -/
theorem keys_ofList (entries : List (String × Value)) :
    (ofList entries).keys = (entries.map (·.1)).eraseDups := by
  induction entries using List.reverseRecOn with
  | nil => rfl
  | append_singleton entries entry ih =>
      rw [ofList_append, keys_insert, ih, List.map_append, List.eraseDups_append]
      by_cases repeated : entry.1 ∈ entries.map (·.1) <;> simp [repeated, List.removeAll, List.eraseDups_cons]

/-- A key has the value that is inserted last. -/
theorem get?_ofList (entries : List (String × Value)) (key : String) :
    (ofList entries).get? key = entries.reverse.lookup key := by
  induction entries using List.reverseRecOn with
  | nil => rfl
  | append_singleton entries entry ih =>
      rw [ofList_append, get?_insert, ih, List.reverse_concat, lookup_entry]

end Conform.Object
