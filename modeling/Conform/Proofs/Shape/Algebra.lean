import Conform.Proofs.Shape.Names

/-! Laws of the operations on shapes.  Each compares two ways to make a shape from the
same operands, property by property and in order. -/

namespace Conform.Shape

variable {properties added more under : List Property} {property other : Property} {index further : Option IndexSignature}
  {name key : String}
  {shape patch picked mid : Shape} {keys first second : List String}

theorem mem_names_inheritProperty : name ∈ (inheritProperty properties property).map (·.name) ↔
    name ∈ properties.map (·.name) ∨ name = property.name := by
  by_cases taken : (findProperty properties property.name).isSome = true
  · rw [inheritProperty, if_pos taken]
    constructor
    · exact .inl
    · intro listed
      rcases listed with listed | rfl
      · exact listed
      · exact findProperty_isSome.mp taken
  · rw [inheritProperty, if_neg taken, List.map_append, List.mem_append, List.map_singleton,
      List.mem_singleton]

theorem mem_names_inheritProperties : name ∈ (inheritProperties properties added).map (·.name) ↔
    name ∈ properties.map (·.name) ∨ name ∈ added.map (·.name) := by
  induction added generalizing properties with
  | nil => simp [inheritProperties]
  | cons next rest ih =>
      change name ∈ (inheritProperties (inheritProperty properties next) rest).map (·.name) ↔ _
      rw [ih, mem_names_inheritProperty, List.map_cons, List.mem_cons, or_assoc]

theorem inheritProperties_inheritProperty : inheritProperties properties (inheritProperty added property) =
    inheritProperty (inheritProperties properties added) property := by
  by_cases taken : (findProperty added property.name).isSome = true
  · have kept : (findProperty (inheritProperties properties added) property.name).isSome = true :=
      findProperty_isSome.mpr (mem_names_inheritProperties.mpr (.inr (findProperty_isSome.mp taken)))
    rw [inheritProperty, if_pos taken, inheritProperty, if_pos kept]
  · rw [inheritProperty, if_neg taken, inheritProperties, List.foldl_append]
    rfl

/-- What was merged before is merged as if it were met one by one. -/
theorem inheritProperties_assoc : inheritProperties properties (inheritProperties added more) =
    inheritProperties (inheritProperties properties added) more := by
  induction more generalizing added with
  | nil => rfl
  | cons next rest ih =>
      change inheritProperties properties (inheritProperties (inheritProperty added next) rest) = _
      rw [ih, inheritProperties_inheritProperty]
      rfl

theorem inherit_own : (own properties index).inherit (own added further) =
    own (properties ++ added) (index.or further) := by
  simp only [own, inherit, inheritProperties_assoc]
  simp [inheritProperties, List.foldl_append]

/-- Merging properties one by one keeps the first one of each name. -/
theorem inheritProperties_nil (properties : List Property) :
    inheritProperties [] properties = properties.eraseDupsBy (·.name == ·.name) := by
  have loops (kept : List Property) : inheritProperties kept.reverse properties =
      List.eraseDupsBy.loop (·.name == ·.name) properties kept := by
    induction properties generalizing kept with
    | nil => rfl
    | cons next rest ih =>
        have known : (findProperty kept.reverse next.name).isSome =
            kept.any fun present => next.name == present.name := by
          rw [Bool.eq_iff_iff, findProperty_isSome]
          simp [@eq_comm _ next.name]
        change inheritProperties (inheritProperty kept.reverse next) rest = _
        rw [List.eraseDupsBy.loop, inheritProperty, known]
        cases kept.any fun present => next.name == present.name with
        | true => exact ih kept
        | false => simpa using ih (next :: kept)
  exact loops []

theorem without_without :
    (shape.without first).without second = shape.without (first ++ second) := by
  simp only [without, List.filter_filter]
  congr 1
  apply List.filter_congr
  intro property _
  simp [Bool.and_comm]

theorem allOptional_allOptional : shape.allOptional.allOptional = shape.allOptional := by
  simp [allOptional]

theorem allOptional_without :
    (shape.without keys).allOptional = shape.allOptional.without keys := by
  simp [allOptional, without, List.filter_map, Function.comp_def]

theorem findProperty_append_singleton : findProperty (properties ++ [property]) name =
    (findProperty properties name).or (if property.name = name then some property else none) := by
  by_cases same : property.name = name <;> simp [findProperty, List.find?_append, same]

/-- A picked key is found as it is found in the shape, and no other key is. -/
theorem findProperty_pickFrom {already : List Property}
    (done : shape.pickFrom already keys = .ok properties) (name : String) :
    findProperty properties name = (findProperty already name).or
      (if name ∈ keys then shape.project? name else none) := by
  induction keys generalizing already with
  | nil =>
      cases done
      simp
  | cons key rest ih =>
      simp only [pickFrom] at done
      by_cases taken : (findProperty already key).isSome = true
      · rw [if_pos taken] at done
        rw [ih done]
        by_cases same : name = key
        · obtain ⟨present, found⟩ := Option.isSome_iff_exists.mp taken
          simp [same, found]
        · simp [same]
      · rw [if_neg taken] at done
        cases found : shape.project? key with
        | none => simp [found] at done
        | some property =>
            simp only [found] at done
            have named := name_of_project? found
            rw [ih done, findProperty_append_singleton, named]
            by_cases same : key = name
            · subst same
              have absent : findProperty already key = none := by simpa using taken
              simp [absent, found]
            · have differ : name ≠ key := fun equal => same equal.symm
              simp [same, differ]

theorem property?_pick (done : shape.pick keys = .ok picked) (name : String) :
    picked.property? name = if name ∈ keys then shape.project? name else none := by
  unfold pick at done
  cases chosen : shape.pickFrom [] keys with
  | error error => simp [chosen] at done
  | ok properties =>
      simp only [chosen, Except.ok.injEq] at done
      subst picked
      simpa [property?, findProperty] using findProperty_pickFrom chosen name

theorem pickFrom_error {already : List Property} {error : SchemaError}
    (failed : shape.pickFrom already keys = .error error) : ∃ key, error = .unknownPickKey key := by
  induction keys generalizing already with
  | nil => cases failed
  | cons key rest ih =>
      simp only [pickFrom] at failed
      split at failed
      · exact ih failed
      · cases found : shape.project? key with
        | none =>
            simp only [found, Except.error.injEq] at failed
            exact ⟨key, failed.symm⟩
        | some property =>
            simp only [found] at failed
            exact ih failed

/-- Only a key without a property stands in the way of picking. -/
theorem pick_error {error : SchemaError} (failed : shape.pick keys = .error error) :
    ∃ key, error = .unknownPickKey key := by
  unfold pick at failed
  cases chosen : shape.pickFrom [] keys with
  | ok properties => simp [chosen] at failed
  | error reason =>
      simp only [chosen, Except.error.injEq] at failed
      exact failed ▸ pickFrom_error chosen

theorem index_pick (done : shape.pick keys = .ok picked) : picked.index = none := by
  unfold pick at done
  cases chosen : shape.pickFrom [] keys with
  | error error => simp [chosen] at done
  | ok properties =>
      simp only [chosen, Except.ok.injEq] at done
      subst picked
      rfl

theorem project?_pick (done : shape.pick keys = .ok picked) (listed : key ∈ keys) :
    picked.project? key = shape.project? key := by
  have found := property?_pick done key
  rw [if_pos listed] at found
  rw [project?, found, index_pick done]
  cases shape.project? key <;> rfl

theorem pickFrom_congr {other : Shape} (same : ∀ key ∈ keys, shape.project? key = other.project? key)
    (already : List Property) : shape.pickFrom already keys = other.pickFrom already keys := by
  induction keys generalizing already with
  | nil => rfl
  | cons key rest ih =>
      have onward := ih fun other listed => same other (List.mem_cons_of_mem _ listed)
      simp only [pickFrom, same key (by simp), onward]

/-- What is picked from picked properties could have been picked at once. -/
theorem pick_pick (done : shape.pick first = .ok mid) (within : ∀ key ∈ second, key ∈ first) :
    mid.pick second = shape.pick second := by
  have same := pickFrom_congr (fun key listed => project?_pick done (within key listed)) []
  simp only [pick, same]

theorem findProperty_optional (properties : List Property) (name : String) :
    findProperty (properties.map fun property => { property with optional := true }) name =
      (findProperty properties name).map fun property => { property with optional := true } := by
  rw [findProperty, List.find?_map]
  rfl

theorem property?_allOptional (shape : Shape) (name : String) : shape.allOptional.property? name =
    (shape.property? name).map fun property => { property with optional := true } :=
  findProperty_optional shape.properties name

@[simp] theorem declares_allOptional (shape : Shape) (name : String) :
    shape.allOptional.declares name = shape.declares name := by
  simp [declares, property?_allOptional]

theorem project?_declared (declared : shape.declares key = true) :
    shape.project? key = shape.property? key := by
  obtain ⟨property, found⟩ := Option.isSome_iff_exists.mp declared
  simp [project?, found]

theorem pickFrom_allOptional (declared : ∀ key ∈ keys, shape.declares key = true)
    (already : List Property) :
    shape.allOptional.pickFrom (already.map fun property => { property with optional := true }) keys =
      (shape.pickFrom already keys).map
        (·.map fun property => { property with optional := true }) := by
  induction keys generalizing already with
  | nil => rfl
  | cons key rest ih =>
      have onward := ih fun other listed => declared other (List.mem_cons_of_mem _ listed)
      have here := declared key (by simp)
      obtain ⟨property, found⟩ := Option.isSome_iff_exists.mp here
      have found' := property?_allOptional shape key
      rw [found, Option.map_some] at found'
      have taken : (findProperty (already.map fun property => { property with optional := true }) key).isSome =
          (findProperty already key).isSome := by
        rw [findProperty_optional, Option.isSome_map]
      simp only [pickFrom, taken, project?, found, found']
      by_cases known : (findProperty already key).isSome = true
      · simpa only [if_pos known] using onward already
      · simpa only [if_neg known, List.map_append, List.map_singleton] using onward (already ++ [property])

/-- Declared keys may be made optional before or after they are picked.  A key that comes from
the index signature would stay required when it is picked last. -/
theorem pick_allOptional (declared : ∀ key ∈ keys, shape.declares key = true) :
    shape.allOptional.pick keys = (shape.pick keys).map allOptional := by
  have same : shape.allOptional.pickFrom [] keys = _ := pickFrom_allOptional declared []
  simp only [pick, same]
  cases shape.pickFrom [] keys <;> rfl

theorem findProperty_eq_some_iff (distinct : (properties.map (·.name)).Nodup) :
    findProperty properties property.name = some property ↔ property ∈ properties := by
  constructor
  · exact mem_of_findProperty
  · intro listed
    have taken := findProperty_isSome.mpr (List.mem_map_of_mem listed)
    obtain ⟨other, found⟩ := Option.isSome_iff_exists.mp taken
    rw [found, List.inj_on_of_nodup_map distinct (mem_of_findProperty found) listed
      (name_of_findProperty found)]

/-- The properties that are picked are those under the keys. -/
theorem mem_pick_iff (done : shape.pick keys = .ok picked) :
    property ∈ picked.properties ↔
      property.name ∈ keys ∧ shape.project? property.name = some property := by
  have found := property?_pick done property.name
  rw [← findProperty_eq_some_iff (distinct_pick done)]
  change picked.property? property.name = some property ↔ _
  rw [found]
  by_cases listed : property.name ∈ keys <;> simp [listed]

/-- Of declared keys the properties are picked as they are. -/
theorem mem_pick (distinct : shape.names.Nodup) (declared : ∀ key ∈ keys, shape.declares key = true)
    (done : shape.pick keys = .ok picked) :
    property ∈ picked.properties ↔ property ∈ shape.properties ∧ property.name ∈ keys := by
  rw [mem_pick_iff done, and_comm, ← findProperty_eq_some_iff distinct]
  refine and_congr_left fun listed => ?_
  rw [project?_declared (declared _ listed), property?]

/-- There is something under every picked key. -/
theorem exists_project? {already : List Property}
    (done : shape.pickFrom already keys = .ok properties)
    (from_shape : ∀ property ∈ already, shape.project? property.name = some property) :
    ∀ key ∈ keys, ∃ property, shape.project? key = some property := by
  induction keys generalizing already with
  | nil => simp
  | cons key rest ih =>
      rw [List.forall_mem_cons]
      simp only [pickFrom] at done
      by_cases taken : (findProperty already key).isSome = true
      · rw [if_pos taken] at done
        obtain ⟨present, found⟩ := Option.isSome_iff_exists.mp taken
        have earlier := from_shape present (mem_of_findProperty found)
        rw [name_of_findProperty found] at earlier
        exact ⟨⟨present, earlier⟩, ih done from_shape⟩
      · rw [if_neg taken] at done
        cases found : shape.project? key with
        | none => simp [found] at done
        | some property =>
            simp only [found] at done
            have named := name_of_project? found
            refine ⟨⟨property, rfl⟩, ih done ?_⟩
            simp only [List.forall_mem_append, List.forall_mem_singleton, named, found, and_true]
            exact from_shape

theorem exists_picked (done : shape.pick keys = .ok picked) (listed : key ∈ keys) :
    ∃ property ∈ picked.properties, property.name = key := by
  cases chosen : shape.pickFrom [] keys with
  | error error => simp [pick, chosen] at done
  | ok properties =>
      obtain ⟨property, found⟩ := exists_project? chosen (by simp) key listed
      have named := name_of_project? found
      exact ⟨property, (mem_pick_iff done).mpr (by simp [named, listed, found]), named⟩

theorem mem_without :
    property ∈ (shape.without keys).properties ↔ property ∈ shape.properties ∧ property.name ∉ keys := by
  simp [without]

/-- Declared keys share out the properties: each is picked or left, and no other one is. -/
theorem pick_or_without (distinct : shape.names.Nodup) (declared : ∀ key ∈ keys, shape.declares key = true)
    (done : shape.pick keys = .ok picked) :
    (∀ property ∈ shape.properties,
        Xor (property ∈ picked.properties) (property ∈ (shape.without keys).properties)) ∧
      ∀ property, property ∈ picked.properties ∨ property ∈ (shape.without keys).properties →
        property ∈ shape.properties := by
  have chosen (property : Property) :
      property ∈ picked.properties ↔ property ∈ shape.properties ∧ property.name ∈ keys :=
    mem_pick distinct declared done
  constructor
  · intro property listed
    by_cases named : property.name ∈ keys <;> simp [Xor, chosen, mem_without, listed, named]
  · rintro property (inside | inside)
    · exact ((chosen property).mp inside).1
    · exact (mem_without.mp inside).1

/-- Puts every property in the place of the one of its name, or at the end. -/
def replaceProperties (properties added : List Property) : List Property :=
  added.foldl (fun properties property => replaceProperty property properties) properties

theorem replaceProperties_cons (properties added : List Property) :
    replaceProperties properties (property :: added) =
      replaceProperties (replaceProperty property properties) added :=
  rfl

theorem replaceProperty_same (same : other.name = property.name) :
    replaceProperty property (replaceProperty other properties) = replaceProperty property properties := by
  induction properties with
  | nil => simp [replaceProperty, same]
  | cons present rest ih =>
      by_cases here : present.name = other.name
      · simp [replaceProperty, here, same]
      · have here' : present.name ≠ property.name := same ▸ here
        simp [replaceProperty, here, here', ih]

/-- A property that has its place already does not depend on the order. -/
theorem replaceProperty_comm (differ : other.name ≠ property.name)
    (present : property.name ∈ properties.map (·.name)) :
    replaceProperty property (replaceProperty other properties) =
      replaceProperty other (replaceProperty property properties) := by
  induction properties with
  | nil => simp at present
  | cons first rest ih =>
      by_cases here : first.name = property.name
      · have apart : property.name ≠ other.name := fun same => differ same.symm
        simp [replaceProperty, here, apart]
      · by_cases there : first.name = other.name
        · simp [replaceProperty, there, differ]
        · have later : property.name ∈ rest.map (·.name) := by
            simpa [Ne.symm here] using present
          simp [replaceProperty, here, there, ih later]

theorem mem_names_replaceProperty (property : Property) (properties : List Property) :
    property.name ∈ (replaceProperty property properties).map (·.name) := by
  induction properties with
  | nil => simp [replaceProperty]
  | cons present rest ih =>
      by_cases here : present.name = property.name <;> simp [replaceProperty, here, ih]

theorem names_replaceProperty_mono (property : Property) (listed : name ∈ properties.map (·.name)) :
    name ∈ (replaceProperty property properties).map (·.name) := by
  induction properties with
  | nil => simp at listed
  | cons present rest ih =>
      by_cases here : present.name = property.name
      · simpa [replaceProperty, here] using listed
      · rcases List.mem_cons.mp listed with same | later
        · simp [replaceProperty, here, same]
        · simp [replaceProperty, here, ih later]

/-- A property with a place moves past properties of other names. -/
theorem replaceProperties_comm (absent : property.name ∉ under.map (·.name))
    (present : property.name ∈ properties.map (·.name)) :
    replaceProperty property (replaceProperties properties under) =
      replaceProperties (replaceProperty property properties) under := by
  induction under generalizing properties with
  | nil => rfl
  | cons next rest ih =>
      simp only [List.map_cons, List.mem_cons, not_or] at absent
      have step := ih absent.2 (names_replaceProperty_mono next present)
      have swapped := replaceProperty_comm (Ne.symm absent.1) present
      rw [replaceProperties_cons, replaceProperties_cons, step, swapped]

/-- Whether a property is put on top of the upper list or of both makes no difference.  The upper
list must not repeat its name: a later property of that name would win over it. -/
theorem replaceProperties_replaceProperty (property : Property)
    (distinct : (under.map (·.name)).Nodup) (properties : List Property) :
    replaceProperty property (replaceProperties properties under) =
      replaceProperties properties (replaceProperty property under) := by
  induction under generalizing properties with
  | nil => rfl
  | cons next rest ih =>
      obtain ⟨fresh, distinct⟩ := List.nodup_cons.mp distinct
      by_cases same : next.name = property.name
      · have absent : property.name ∉ rest.map (·.name) := by simpa [← same] using fresh
        have placed : property.name ∈ (replaceProperty next properties).map (·.name) := by
          simpa only [same] using mem_names_replaceProperty next properties
        rw [replaceProperties_cons, replaceProperties_comm absent placed, replaceProperty_same same,
          replaceProperty, if_pos same, replaceProperties_cons]
      · rw [replaceProperties_cons, ih distinct, replaceProperty, if_neg same, replaceProperties_cons]

theorem replaceProperties_assoc (distinct : (under.map (·.name)).Nodup)
    (properties top : List Property) :
    replaceProperties (replaceProperties properties under) top =
      replaceProperties properties (replaceProperties under top) := by
  induction top generalizing under with
  | nil => rfl
  | cons next rest ih =>
      have moved := replaceProperties_replaceProperty next distinct properties
      rw [replaceProperties_cons, replaceProperties_cons, moved, ih (distinct_replaceProperty distinct)]

/-- Overwriting is associative. -/
theorem overwrite_overwrite {lower : Shape} (distinct : lower.names.Nodup) :
    (shape.overwrite lower).overwrite patch = shape.overwrite (lower.overwrite patch) := by
  have placed := replaceProperties_assoc distinct shape.properties patch.properties
  simp only [overwrite, Option.or_assoc]
  exact congrArg (Shape.mk · _) placed

end Conform.Shape
