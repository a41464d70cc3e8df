import Conform.Schema.Encode

/-! The schemas inside a schema.  What is proved of a schema from the schemas directly
inside it holds of all schemas; the documents of these are parts of its document. -/

namespace Conform

namespace Json

theorem depthOfItems_le {items : List Json} {bound : Nat} :
    depthOfItems items ≤ bound ↔ ∀ item ∈ items, item.depth ≤ bound := by
  induction items with
  | nil => simp [depthOfItems]
  | cons first rest ih => rw [depthOfItems, Nat.max_le, ih, List.forall_mem_cons]

theorem depthOfMembers_le {members : List (String × Json)} {bound : Nat} :
    depthOfMembers members ≤ bound ↔ ∀ member ∈ members, member.2.depth ≤ bound := by
  induction members with
  | nil => simp [depthOfMembers]
  | cons first rest ih => rw [depthOfMembers, Nat.max_le, ih, List.forall_mem_cons]

theorem depth_item {items : List Json} {item : Json} (listed : item ∈ items) :
    item.depth ≤ depthOfItems items :=
  depthOfItems_le.mp (Nat.le_refl _) item listed

theorem depth_member {members : List (String × Json)} {name : String} {json : Json}
    (listed : (name, json) ∈ members) : json.depth ≤ depthOfMembers members :=
  depthOfMembers_le.mp (Nat.le_refl _) (name, json) listed

end Json

namespace Schema

/-- The schemas directly inside a schema. -/
def children : Schema → List Schema
  | .array element => [element]
  | .tuple elements _ => elements
  | .interface properties index parents =>
      properties.map (·.type) ++ (index.map (·.type)).toList ++ parents.map (·.type)
  | .indexedAccess object _ => [object]
  | .union members | .intersection members => members.map (·.type)
  | .pick target _ | .optional target | .without target _ => [target]
  | .overwrite target patch => [target, patch]
  | _ => []

/-- What holds of a schema when it holds of its children. -/
def Inherited (holds : Schema → Prop) : Prop :=
  ∀ schema : Schema, (∀ child ∈ schema.children, holds child) → holds schema

section

variable {holds : Schema → Prop}

mutual

theorem Inherited.all (step : Inherited holds) : ∀ schema, holds schema
  | .boolean | .string | .any | .nonPrimitive | .number _ | .literal _ | .enumeration _
  | .buffer _ | .reference _ => step _ (by simp [children])
  | .array element => step _ (by simpa [children] using step.all element)
  | .tuple elements _ => step _ (step.schemas elements)
  | .interface properties index parents => step _ (by
      simp only [children, List.forall_mem_append]
      exact ⟨⟨step.properties properties, step.index index⟩, step.branches parents⟩)
  | .indexedAccess object _ => step _ (by simpa [children] using step.all object)
  | .union members | .intersection members => step _ (step.branches members)
  | .pick target _ | .optional target | .without target _ =>
      step _ (by simpa [children] using step.all target)
  | .overwrite target patch => step _ (by
      simpa [children] using And.intro (step.all target) (step.all patch))
termination_by structural schema => schema

theorem Inherited.schemas (step : Inherited holds) :
    ∀ schemas : List Schema, ∀ schema ∈ schemas, holds schema
  | [] => by simp
  | schema :: rest => List.forall_mem_cons.mpr ⟨step.all schema, step.schemas rest⟩
termination_by structural schemas => schemas

theorem Inherited.properties (step : Inherited holds) :
    ∀ properties : List PropertyDecl, ∀ type ∈ properties.map (·.type), holds type
  | [] => by simp
  | ⟨_, _, _, type⟩ :: rest => List.forall_mem_cons.mpr ⟨step.all type, step.properties rest⟩
termination_by structural properties => properties

theorem Inherited.index (step : Inherited holds) :
    ∀ index : Option IndexDecl, ∀ type ∈ (index.map (·.type)).toList, holds type
  | none => by simp
  | some ⟨_, type⟩ => List.forall_mem_cons.mpr ⟨step.all type, by simp⟩
termination_by structural index => index

theorem Inherited.branches (step : Inherited holds) :
    ∀ branches : List Branch, ∀ type ∈ branches.map (·.type), holds type
  | [] => by simp
  | ⟨_, type⟩ :: rest => List.forall_mem_cons.mpr ⟨step.all type, step.branches rest⟩
termination_by structural branches => branches

end

end

def propertyJson (property : PropertyDecl) : Json :=
  .object ([("id", naturalJson property.id.toNat), ("name", .string property.name)] ++
    (if property.optional then [("optional", .bool true)] else []) ++
    [("type", toJson property.type)])

def branchJson (branch : Branch) : Json :=
  .object [("id", naturalJson branch.id.toNat), ("type", toJson branch.type)]

def signatureJson (signature : IndexDecl) : Json :=
  .object [("keyType", .string signature.keyType.name), ("type", toJson signature.type)]

theorem schemasJson_eq (schemas : List Schema) : schemasJson schemas = schemas.map toJson := by
  induction schemas with
  | nil => rfl
  | cons schema rest ih => rw [schemasJson, ih, List.map_cons]

theorem propertiesJson_eq (properties : List PropertyDecl) :
    propertiesJson properties = properties.map propertyJson := by
  induction properties with
  | nil => rfl
  | cons property rest ih =>
      obtain ⟨id, name, optional, type⟩ := property
      rw [propertiesJson, ih, List.map_cons, propertyJson]

theorem branchesJson_eq (branches : List Branch) :
    branchesJson branches = branches.map branchJson := by
  induction branches with
  | nil => rfl
  | cons branch rest ih =>
      obtain ⟨id, type⟩ := branch
      rw [branchesJson, ih, List.map_cons, branchJson]

theorem indexJson_eq (index : Option IndexDecl) : indexJson index = index.map signatureJson := by
  cases index with
  | none => rfl
  | some signature =>
      obtain ⟨keyType, type⟩ := signature
      rw [indexJson, Option.map_some, signatureJson]

section

variable {α : Type} {name : String} {write : α → Json}

theorem forall_presentField (holds : Json → Prop) {choice : Option α}
    (each : ∀ value ∈ choice, holds (write value)) :
    ∀ field ∈ presentField name (choice.map write), holds field.2 := by
  cases choice with
  | none => exact nofun
  | some value => exact List.forall_mem_singleton.mpr (each value rfl)

theorem forall_listField (holds : Json → Prop) {values : List α}
    (whole : values ≠ [] → holds (.array (values.map write))) :
    ∀ field ∈ listField name (values.map write), holds field.2 := by
  cases values with
  | nil => exact nofun
  | cons value rest => exact List.forall_mem_singleton.mpr (whole nofun)

end

variable {kind : Kind} {fields : List (String × Json)} {name : String} {json : Json} {items : List Json}

theorem depth_field (listed : (name, json) ∈ fields) : json.depth < (tagged kind fields).depth :=
  Nat.lt_succ_of_le (Json.depth_member (List.mem_cons_of_mem _ listed))

theorem depth_listed (listed : json ∈ items) : json.depth < (Json.array items).depth :=
  Nat.lt_succ_of_le (Json.depth_item listed)

theorem depth_branch {branch : Branch} {branches : List Branch} (listed : branch ∈ branches) :
    branch.type.toJson.depth < (Json.array (branchesJson branches)).depth := by
  have whole : branchJson branch ∈ branchesJson branches := by
    rw [branchesJson_eq]
    exact List.mem_map_of_mem listed
  apply Nat.lt_trans _ (depth_listed whole)
  exact Nat.lt_succ_of_le (Json.depth_member (List.mem_cons_of_mem _ (List.mem_singleton_self _)))

theorem depth_property {property : PropertyDecl} {properties : List PropertyDecl}
    (listed : property ∈ properties) :
    property.type.toJson.depth < (Json.array (propertiesJson properties)).depth := by
  have whole : propertyJson property ∈ propertiesJson properties := by
    rw [propertiesJson_eq]
    exact List.mem_map_of_mem listed
  apply Nat.lt_trans _ (depth_listed whole)
  exact Nat.lt_succ_of_le (Json.depth_member (List.mem_append_right _ (List.mem_singleton_self _)))

theorem mem_listField (inhabited : items ≠ []) : (name, .array items) ∈ listField name items := by
  cases items with
  | nil => exact (inhabited rfl).elim
  | cons item rest => exact List.mem_singleton_self _

theorem depth_positive (schema : Schema) : 0 < schema.toJson.depth := by
  cases schema <;> simp [toJson, tagged, Json.depth]

theorem depth_interface {properties : List PropertyDecl} {index : Option IndexDecl}
    {parents : List Branch} {child : Schema}
    (inside : child ∈ (Schema.interface properties index parents).children) :
    child.toJson.depth < (toJson (.interface properties index parents)).depth := by
  simp only [toJson]
  simp only [children, List.mem_append, or_assoc] at inside
  rcases inside with inside | inside | inside
  · obtain ⟨property, listed, rfl⟩ := List.mem_map.mp inside
    apply Nat.lt_trans (depth_property listed)
    apply depth_field (List.mem_append_left _ (List.mem_append_left _ (mem_listField _)))
    simpa [propertiesJson_eq] using List.ne_nil_of_mem listed
  · cases index with
    | none => cases inside
    | some signature =>
        cases List.mem_singleton.mp inside
        have whole : signature.type.toJson.depth < (signatureJson signature).depth :=
          Nat.lt_succ_of_le (Json.depth_member (List.mem_cons_of_mem _ (List.mem_singleton_self _)))
        have written : presentField "indexSignature" (indexJson (some signature)) =
            [("indexSignature", signatureJson signature)] := by
          rw [indexJson_eq]
          rfl
        rw [written]
        apply Nat.lt_trans whole
        exact depth_field (List.mem_append_left _ (List.mem_append_right _
          (List.mem_singleton_self _)))
  · obtain ⟨branch, listed, rfl⟩ := List.mem_map.mp inside
    apply Nat.lt_trans (depth_branch listed)
    apply depth_field (List.mem_append_right _ (mem_listField _))
    simpa [branchesJson_eq] using List.ne_nil_of_mem listed

/-- A child's document has less depth. -/
theorem depth_child {schema child : Schema} (inside : child ∈ schema.children) :
    child.toJson.depth < schema.toJson.depth := by
  cases schema with
  | boolean | string | any | nonPrimitive | number | literal | enumeration | buffer | reference =>
      cases inside
  | array element =>
      cases List.mem_singleton.mp inside
      simp only [toJson]
      exact depth_field (List.mem_singleton_self _)
  | indexedAccess object index =>
      cases List.mem_singleton.mp inside
      simp only [toJson]
      exact depth_field (List.mem_cons_self ..)
  | pick target _ | «optional» target | without target _ =>
      cases List.mem_singleton.mp inside
      simp only [toJson]
      exact depth_field (List.mem_cons_self ..)
  | overwrite target patch =>
      simp only [toJson]
      simp only [children, List.mem_cons, List.not_mem_nil, or_false] at inside
      rcases inside with rfl | rfl
      · exact depth_field (List.mem_cons_self ..)
      · exact depth_field (List.mem_cons_of_mem _ (List.mem_singleton_self _))
  | tuple elements start =>
      have listed : child.toJson ∈ schemasJson elements := by
        rw [schemasJson_eq]
        exact List.mem_map_of_mem inside
      simp only [toJson]
      exact Nat.lt_trans (depth_listed listed) (depth_field (List.mem_cons_self ..))
  | union members | intersection members =>
      obtain ⟨branch, listed, rfl⟩ := List.mem_map.mp inside
      simp only [toJson]
      exact Nat.lt_trans (depth_branch listed) (depth_field (List.mem_singleton_self _))
  | interface properties index parents => exact depth_interface inside

/-- A number occurs in a literal or an enumeration of the schema. -/
inductive Mentions (number : Binary64) : Schema → Prop
  | literal : Mentions number (.literal (.number number))
  | enumeration {id : UInt32} {members : List EnumMember} (listed : ⟨id, .number number⟩ ∈ members) :
      Mentions number (.enumeration members)
  | inside {schema child : Schema} (listed : child ∈ schema.children)
      (mentions : Mentions number child) : Mentions number schema

end Schema

end Conform
