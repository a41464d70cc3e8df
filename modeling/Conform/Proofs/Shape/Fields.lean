import Mathlib.Data.List.Nodup
import Conform.ForeignFields
import Conform.Proofs.Shape.Names

/-! Names of foreign fields.  They are kept in order and without repetition, so
two collections of the same names are the same list. -/

namespace Conform.ForeignFields

variable {fields : ForeignFields} {names others : List String} {name other : String} {shape : Shape}

theorem mem_insertName : other ∈ insertName name names ↔ other = name ∨ other ∈ names := by
  induction names with
  | nil => simp [insertName]
  | cons present rest ih =>
      by_cases before : name < present
      · simp [insertName, before]
      · by_cases same : present = name
        · simp [insertName, same]
        · simp only [insertName, before, same, if_false, List.mem_cons, ih]
          exact or_left_comm

theorem sorted_insertName (sorted : names.Pairwise (· < ·)) :
    (insertName name names).Pairwise (· < ·) := by
  induction names with
  | nil => simp [insertName]
  | cons present rest ih =>
      obtain ⟨above, ordered⟩ := List.pairwise_cons.mp sorted
      by_cases before : name < present
      · simp only [insertName, before, if_true]
        refine List.pairwise_cons.mpr ⟨fun other listed => ?_, sorted⟩
        rcases List.mem_cons.mp listed with rfl | later
        · exact before
        · exact String.lt_trans before (above other later)
      · by_cases same : present = name
        · rw [insertName, if_neg before, if_pos same]
          exact sorted
        · simp only [insertName, before, same, if_false]
          refine List.pairwise_cons.mpr ⟨fun other listed => ?_, ih ordered⟩
          rcases mem_insertName.mp listed with rfl | later
          · by_cases behind : present < other
            · exact behind
            · exact (same (String.le_antisymm (String.not_lt.mp before)
                (String.not_lt.mp behind))).elim
          · exact above other later

theorem eq_of_sorted (sorted : names.Pairwise (· < ·)) (sorted' : others.Pairwise (· < ·))
    (same : ∀ name, name ∈ names ↔ name ∈ others) : names = others := by
  have distinct {list : List String} (ordered : list.Pairwise (· < ·)) : list.Nodup := by
    refine ordered.imp fun {first second} less same => ?_
    rw [same] at less
    exact String.lt_irrefl second less
  have perm := (List.perm_ext_iff_of_nodup (distinct sorted) (distinct sorted')).mpr
    (fun name => same name)
  exact perm.eq_of_pairwise (fun _ _ _ _ less more => (String.lt_asymm less more).elim) sorted sorted'

theorem mem_absorb :
    name ∈ (fields.absorb shape).names ↔ name ∈ fields.names ∨ name ∈ shape.names := by
  have inserted (properties : List Property) : ∀ names : List String,
      name ∈ properties.foldl (fun names property => insertName property.name names) names ↔
        name ∈ names ∨ name ∈ properties.map (·.name) := by
    induction properties with
    | nil => simp
    | cons property rest ih =>
        intro names
        rw [List.foldl_cons, ih, mem_insertName, List.map_cons, List.mem_cons, or_assoc]
        exact or_left_comm
  exact inserted shape.properties fields.names

theorem sorted_absorb (sorted : fields.names.Pairwise (· < ·)) :
    (fields.absorb shape).names.Pairwise (· < ·) := by
  have inserted (properties : List Property) : ∀ names : List String, names.Pairwise (· < ·) →
      (properties.foldl (fun names property => insertName property.name names) names).Pairwise
        (· < ·) := by
    induction properties with
    | nil => exact fun _ ordered => ordered
    | cons property rest ih => exact fun names ordered => ih _ (sorted_insertName ordered)
  exact inserted shape.properties fields.names sorted

theorem stringKeys_absorb : (fields.absorb shape).stringKeys = true ↔
    fields.stringKeys = true ∨ shape.index.map (·.keyType) = some .string := by
  simp [absorb]

theorem numberKeys_absorb : (fields.absorb shape).numberKeys = true ↔
    fields.numberKeys = true ∨ shape.index.map (·.keyType) = some .number := by
  simp [absorb]

end Conform.ForeignFields
