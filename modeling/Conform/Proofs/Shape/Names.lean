import Mathlib.Data.List.Nodup
import Conform.Shape

/-! The names and the types in a shape.  No operation on shapes lets a name occur
twice or brings in a type that its operands do not have. -/

namespace Conform.Shape

variable {properties added : List Property} {property : Property} {name key : String}
  {shape parent patch result : Shape} {keys : List String} {type : SchemaId}

def names (shape : Shape) : List String :=
  shape.properties.map (·.name)

/-- The identities in a shape. -/
def types (shape : Shape) : List SchemaId :=
  shape.properties.map (·.type) ++ (shape.index.map (·.type)).toList

theorem findProperty_isSome :
    (findProperty properties name).isSome = true ↔ name ∈ properties.map (·.name) := by
  simp [findProperty, List.find?_isSome]

theorem mem_of_findProperty (found : findProperty properties name = some property) :
    property ∈ properties :=
  List.mem_of_find?_eq_some found

theorem name_of_findProperty (found : findProperty properties name = some property) :
    property.name = name := by
  simpa using List.find?_some found

theorem type_mem_of_property? (found : shape.property? name = some property) :
    property.type ∈ shape.types :=
  List.mem_append_left _ (List.mem_map_of_mem (mem_of_findProperty found))

theorem type_mem_of_index {signature : IndexSignature} (signed : shape.index = some signature) :
    signature.type ∈ shape.types := by
  simp [types, signed]

theorem mem_types : type ∈ shape.types ↔
    (∃ property ∈ shape.properties, property.type = type) ∨
      ∃ signature, shape.index = some signature ∧ signature.type = type := by
  simp [types, Option.mem_toList, Option.map_eq_some_iff]

theorem mem_inheritProperty {parentProperty : Property}
    (member : property ∈ inheritProperty properties parentProperty) :
    property ∈ properties ∨ property = parentProperty := by
  unfold inheritProperty at member
  split at member
  · exact .inl member
  · simpa using member

theorem mem_inheritProperties (member : property ∈ inheritProperties properties added) :
    property ∈ properties ∨ property ∈ added := by
  induction added generalizing properties with
  | nil => exact .inl member
  | cons next rest ih =>
      rcases ih member with earlier | later
      · rcases mem_inheritProperty earlier with old | rfl
        · exact .inl old
        · exact .inr (List.mem_cons_self ..)
      · exact .inr (List.mem_cons_of_mem _ later)

theorem distinct_inheritProperty (distinct : (properties.map (·.name)).Nodup) :
    ((inheritProperty properties property).map (·.name)).Nodup := by
  unfold inheritProperty
  split
  · exact distinct
  · rename_i missing
    rw [List.map_append, List.nodup_append]
    refine ⟨distinct, List.nodup_singleton _, fun present member other single => ?_⟩
    rw [findProperty_isSome] at missing
    rintro rfl
    rw [List.map_singleton, List.mem_singleton] at single
    exact missing (single ▸ member)

theorem distinct_inheritProperties (distinct : (properties.map (·.name)).Nodup) :
    ((inheritProperties properties added).map (·.name)).Nodup := by
  induction added generalizing properties with
  | nil => exact distinct
  | cons next rest ih => exact ih (distinct_inheritProperty distinct)

/-- Properties of distinct names all stay. -/
theorem inheritProperties_of_distinct
    (distinct : (properties.map (·.name) ++ added.map (·.name)).Nodup) :
    inheritProperties properties added = properties ++ added := by
  induction added generalizing properties with
  | nil => simp [inheritProperties]
  | cons next rest ih =>
      have absent : ¬ (findProperty properties next.name).isSome = true := by
        rw [findProperty_isSome]
        intro member
        exact (List.nodup_append.mp distinct).2.2 next.name member next.name (by simp) rfl
      have step : inheritProperty properties next = properties ++ [next] := by
        simp only [inheritProperty, if_neg absent]
      change inheritProperties (inheritProperty properties next) rest = _
      rw [step, ih (by simpa using distinct), List.append_assoc, List.singleton_append]

theorem distinct_own (properties : List Property) (index : Option IndexSignature) :
    (own properties index).names.Nodup :=
  distinct_inheritProperties (by simp)

theorem own_eq (distinct : shape.names.Nodup) : own shape.properties shape.index = shape := by
  have kept : inheritProperties [] shape.properties = [] ++ shape.properties :=
    inheritProperties_of_distinct (by simpa [names] using distinct)
  simp only [own, kept, List.nil_append]

theorem types_own {index : Option IndexSignature} (member : type ∈ (own properties index).types) :
    (∃ property ∈ properties, property.type = type) ∨
      ∃ signature, index = some signature ∧ signature.type = type := by
  rcases mem_types.mp member with ⟨property, listed, same⟩ | signed
  · rcases mem_inheritProperties listed with none | listed
    · cases none
    · exact .inl ⟨property, listed, same⟩
  · exact .inr signed

theorem distinct_inherit (distinct : shape.names.Nodup) : (shape.inherit parent).names.Nodup :=
  distinct_inheritProperties distinct

theorem types_inherit (member : type ∈ (shape.inherit parent).types) :
    type ∈ shape.types ∨ type ∈ parent.types := by
  rcases mem_types.mp member with ⟨property, listed, same⟩ | ⟨signature, signed, same⟩
  · rcases mem_inheritProperties listed with own | inherited
    · exact .inl (mem_types.mpr (.inl ⟨property, own, same⟩))
    · exact .inr (mem_types.mpr (.inl ⟨property, inherited, same⟩))
  · cases index : shape.index with
    | some own =>
        simp only [inherit, index, Option.some_or, Option.some.injEq] at signed
        exact .inl (mem_types.mpr (.inr ⟨own, index, signed ▸ same⟩))
    | none =>
        simp only [inherit, index, Option.none_or] at signed
        exact .inr (mem_types.mpr (.inr ⟨signature, signed, same⟩))

theorem name_of_project? (found : shape.project? key = some property) : property.name = key := by
  unfold project? at found
  cases declared : shape.property? key with
  | some present =>
      simp only [declared, Option.some.injEq] at found
      exact found ▸ name_of_findProperty declared
  | none =>
      cases signed : shape.index with
      | none => simp [declared, signed] at found
      | some signature =>
          simp only [declared, signed] at found
          split at found
          · cases found
            rfl
          · contradiction

theorem type_mem_of_project? (found : shape.project? key = some property) :
    property.type ∈ shape.types := by
  unfold project? at found
  cases declared : shape.property? key with
  | some present =>
      simp only [declared, Option.some.injEq] at found
      exact found ▸ type_mem_of_property? declared
  | none =>
      cases signed : shape.index with
      | none => simp [declared, signed] at found
      | some signature =>
          simp only [declared, signed] at found
          split at found
          · cases found
            exact type_mem_of_index signed
          · contradiction

theorem distinct_pickFrom {picked : List Property} (distinct : (picked.map (·.name)).Nodup)
    (done : shape.pickFrom picked keys = .ok properties) : (properties.map (·.name)).Nodup := by
  induction keys generalizing picked with
  | nil =>
      cases done
      exact distinct
  | cons key rest ih =>
      simp only [pickFrom] at done
      split at done
      · exact ih distinct done
      · rename_i absent
        cases found : shape.project? key with
        | none => simp [found] at done
        | some property =>
            simp only [found] at done
            refine ih ?_ done
            have step : ((inheritProperty picked property).map (·.name)).Nodup :=
              distinct_inheritProperty distinct
            rwa [inheritProperty, if_neg (by rwa [name_of_project? found])] at step

theorem types_pickFrom {picked : List Property} (done : shape.pickFrom picked keys = .ok properties)
    (member : property ∈ properties) : property ∈ picked ∨ property.type ∈ shape.types := by
  induction keys generalizing picked with
  | nil =>
      cases done
      exact .inl member
  | cons key rest ih =>
      simp only [pickFrom] at done
      split at done
      · exact ih done
      · cases found : shape.project? key with
        | none => simp [found] at done
        | some next =>
            simp only [found] at done
            rcases ih done with earlier | within
            · rcases List.mem_append.mp earlier with old | new
              · exact .inl old
              · rw [List.mem_singleton.mp new]
                exact .inr (type_mem_of_project? found)
            · exact .inr within

theorem distinct_pick (done : shape.pick keys = .ok result) : result.names.Nodup := by
  unfold pick at done
  cases picked : shape.pickFrom [] keys with
  | error error => simp [picked] at done
  | ok properties =>
      simp only [picked, Except.ok.injEq] at done
      exact done ▸ distinct_pickFrom (by simp) picked

theorem types_pick (done : shape.pick keys = .ok result) (member : type ∈ result.types) :
    type ∈ shape.types := by
  unfold pick at done
  cases picked : shape.pickFrom [] keys with
  | error error => simp [picked] at done
  | ok properties =>
      simp only [picked, Except.ok.injEq] at done
      subst result
      rcases mem_types.mp member with ⟨property, listed, rfl⟩ | ⟨_, signed, _⟩
      · rcases types_pickFrom picked listed with none | within
        · cases none
        · exact within
      · cases signed

@[simp] theorem names_allOptional : shape.allOptional.names = shape.names := by
  simp [allOptional, names, Function.comp_def]

@[simp] theorem types_allOptional : shape.allOptional.types = shape.types := by
  simp [allOptional, types, Function.comp_def]

theorem distinct_without (distinct : shape.names.Nodup) : (shape.without keys).names.Nodup :=
  List.Nodup.sublist (List.Sublist.map _ List.filter_sublist) distinct

theorem types_without (member : type ∈ (shape.without keys).types) : type ∈ shape.types := by
  rcases mem_types.mp member with ⟨property, listed, same⟩ | signed
  · exact mem_types.mpr (.inl ⟨property, List.mem_of_mem_filter listed, same⟩)
  · exact mem_types.mpr (.inr signed)

theorem mem_replaceProperty {other : Property}
    (member : other ∈ replaceProperty property properties) :
    other = property ∨ other ∈ properties := by
  induction properties with
  | nil => simpa [replaceProperty] using member
  | cons present rest ih =>
      simp only [replaceProperty] at member
      split at member
      · rcases List.mem_cons.mp member with same | old
        · exact .inl same
        · exact .inr (List.mem_cons_of_mem _ old)
      · rcases List.mem_cons.mp member with rfl | later
        · exact .inr (List.mem_cons_self ..)
        · rcases ih later with same | old
          · exact .inl same
          · exact .inr (List.mem_cons_of_mem _ old)

theorem names_replaceProperty (member : name ∈ (replaceProperty property properties).map (·.name)) :
    name = property.name ∨ name ∈ properties.map (·.name) := by
  obtain ⟨other, listed, rfl⟩ := List.mem_map.mp member
  rcases mem_replaceProperty listed with rfl | old
  · exact .inl rfl
  · exact .inr (List.mem_map_of_mem old)

theorem distinct_replaceProperty (distinct : (properties.map (·.name)).Nodup) :
    ((replaceProperty property properties).map (·.name)).Nodup := by
  induction properties with
  | nil => simp [replaceProperty]
  | cons present rest ih =>
      rw [List.map_cons, List.nodup_cons] at distinct
      simp only [replaceProperty]
      split
      · rename_i same
        rw [List.map_cons, List.nodup_cons, ← same]
        exact distinct
      · rename_i differ
        rw [List.map_cons, List.nodup_cons]
        refine ⟨fun member => ?_, ih distinct.2⟩
        rcases names_replaceProperty member with same | old
        · exact differ same
        · exact distinct.1 old

theorem distinct_overwrite (distinct : shape.names.Nodup) : (shape.overwrite patch).names.Nodup := by
  have replaced (added properties : List Property) (distinct : (properties.map (·.name)).Nodup) :
      ((added.foldl (fun properties property => replaceProperty property properties)
        properties).map (·.name)).Nodup := by
    induction added generalizing properties with
    | nil => exact distinct
    | cons next rest ih => exact ih _ (distinct_replaceProperty distinct)
  exact replaced patch.properties shape.properties distinct

theorem types_overwrite (member : type ∈ (shape.overwrite patch).types) :
    type ∈ shape.types ∨ type ∈ patch.types := by
  have replaced (property : Property) (added properties : List Property)
      (listed : property ∈ added.foldl (fun properties property =>
        replaceProperty property properties) properties) :
      property ∈ properties ∨ property ∈ added := by
    induction added generalizing properties with
    | nil => exact .inl listed
    | cons next rest ih =>
        rcases ih _ listed with earlier | later
        · rcases mem_replaceProperty earlier with rfl | old
          · exact .inr (List.mem_cons_self ..)
          · exact .inl old
        · exact .inr (List.mem_cons_of_mem _ later)
  rcases mem_types.mp member with ⟨property, listed, same⟩ | ⟨signature, signed, same⟩
  · rcases replaced property patch.properties shape.properties listed with own | new
    · exact .inl (mem_types.mpr (.inl ⟨property, own, same⟩))
    · exact .inr (mem_types.mpr (.inl ⟨property, new, same⟩))
  · cases index : patch.index with
    | some new =>
        simp only [overwrite, index, Option.some_or, Option.some.injEq] at signed
        exact .inr (mem_types.mpr (.inr ⟨new, index, signed ▸ same⟩))
    | none =>
        simp only [overwrite, index, Option.none_or] at signed
        exact .inl (mem_types.mpr (.inr ⟨signature, signed, same⟩))

end Conform.Shape
