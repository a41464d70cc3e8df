import Conform.Arena.Basic
import Conform.Proofs.Schema.Parts

/-! What the nodes of a schema depend on.  The numbers of declarations leave no trace in them, and their
references have the targets that occur in the schema. -/

namespace Conform

namespace Schema

/-- A reference with the target occurs in the schema. -/
inductive RefersTo (target : String) : Schema → Prop
  | reference : RefersTo target (.reference target)
  | inside {schema child : Schema} (listed : child ∈ schema.children) (refers : RefersTo target child) :
      RefersTo target schema

theorem RefersTo.of_reference {name target : String} (refers : RefersTo target (.reference name)) :
    target = name := by
  cases refers with
  | reference => rfl
  | inside listed _ => cases listed

/-- Every reference in the schema has a target of the given kind. -/
def RefersOnly (named : String → Prop) (schema : Schema) : Prop :=
  ∀ target, schema.RefersTo target → named target

theorem RefersOnly.child {named : String → Prop} {schema child : Schema} (only : RefersOnly named schema)
    (listed : child ∈ schema.children) : RefersOnly named child :=
  fun target refers => only target (.inside listed refers)

mutual

/-- The schema with every declaration numbered zero. -/
def unnumbered : Schema → Schema
  | .enumeration members => .enumeration (members.map fun member => ⟨0, member.value⟩)
  | .array element => .array element.unnumbered
  | .tuple elements optionalStart => .tuple (unnumberedSchemas elements) optionalStart
  | .interface properties index parents =>
      .interface (unnumberedProperties properties) (unnumberedIndex index) (unnumberedBranches parents)
  | .indexedAccess object index => .indexedAccess object.unnumbered index
  | .union members => .union (unnumberedBranches members)
  | .intersection members => .intersection (unnumberedBranches members)
  | .pick target keys => .pick target.unnumbered keys
  | .optional target => .optional target.unnumbered
  | .without target keys => .without target.unnumbered keys
  | .overwrite target patch => .overwrite target.unnumbered patch.unnumbered
  | schema => schema
termination_by structural schema => schema

def unnumberedSchemas : List Schema → List Schema
  | [] => []
  | schema :: rest => schema.unnumbered :: unnumberedSchemas rest
termination_by structural schemas => schemas

def unnumberedProperties : List PropertyDecl → List PropertyDecl
  | [] => []
  | ⟨_, name, isOptional, type⟩ :: rest => ⟨0, name, isOptional, type.unnumbered⟩ :: unnumberedProperties rest
termination_by structural properties => properties

def unnumberedIndex : Option IndexDecl → Option IndexDecl
  | none => none
  | some ⟨keyType, type⟩ => some ⟨keyType, type.unnumbered⟩
termination_by structural index => index

def unnumberedBranches : List Branch → List Branch
  | [] => []
  | ⟨_, type⟩ :: rest => ⟨0, type.unnumbered⟩ :: unnumberedBranches rest
termination_by structural branches => branches

end

theorem unnumberedSchemas_eq (schemas : List Schema) : unnumberedSchemas schemas = schemas.map unnumbered := by
  induction schemas with
  | nil => rfl
  | cons schema rest ih => rw [unnumberedSchemas, ih, List.map_cons]

theorem unnumberedProperties_types (properties : List PropertyDecl) :
    (unnumberedProperties properties).map (·.type) = (properties.map (·.type)).map unnumbered := by
  induction properties with
  | nil => rfl
  | cons property rest ih =>
      obtain ⟨id, name, optional, type⟩ := property
      simp only [unnumberedProperties, List.map_cons, ih]

theorem unnumberedBranches_types (branches : List Branch) :
    (unnumberedBranches branches).map (·.type) = (branches.map (·.type)).map unnumbered := by
  induction branches with
  | nil => rfl
  | cons branch rest ih =>
      obtain ⟨id, type⟩ := branch
      simp only [unnumberedBranches, List.map_cons, ih]

theorem children_unnumbered (schema : Schema) : schema.unnumbered.children = schema.children.map unnumbered := by
  cases schema with
  | tuple elements optionalStart => exact unnumberedSchemas_eq elements
  | interface properties index parents =>
      simp only [unnumbered, children, List.map_append, unnumberedProperties_types, unnumberedBranches_types]
      cases index with
      | none => rfl
      | some signature =>
          obtain ⟨keyType, type⟩ := signature
          rfl
  | union members | intersection members => exact unnumberedBranches_types members
  | _ => rfl

theorem refersTo_unnumbered {schema : Schema} {target : String} :
    schema.unnumbered.RefersTo target ↔ schema.RefersTo target := by
  constructor
  · intro refers
    generalize same : schema.unnumbered = numberless at refers
    induction refers generalizing schema with
    | reference =>
        cases schema <;> simp only [unnumbered, reduceCtorEq, Schema.reference.injEq] at same
        exact same ▸ .reference
    | inside listed _ ih =>
        subst same
        rw [children_unnumbered] at listed
        obtain ⟨child, inside, same⟩ := List.mem_map.mp listed
        exact .inside inside (ih same)
  · intro refers
    induction refers with
    | reference => exact .reference
    | inside listed _ ih =>
        refine .inside ?_ ih
        rw [children_unnumbered]
        exact List.mem_map_of_mem listed

end Schema

namespace Arena

open Schema

mutual

theorem pushSchema_unnumbered : ∀ schema : Schema, pushSchema schema.unnumbered = pushSchema schema
  | .boolean | .string | .any | .nonPrimitive | .number _ | .literal _ | .buffer _ | .reference _ => rfl
  | .enumeration members => by simp only [unnumbered, pushSchema, List.map_map, Function.comp_def]
  | .array element => by simp only [unnumbered, pushSchema, pushSchema_unnumbered element]
  | .tuple elements _ => by simp only [unnumbered, pushSchema, pushSchemas_unnumbered elements]
  | .interface properties index parents => by
      simp only [unnumbered, pushSchema, pushProperties_unnumbered properties, pushIndex_unnumbered index,
        pushBranches_unnumbered parents]
  | .indexedAccess object _ => by simp only [unnumbered, pushSchema, pushSchema_unnumbered object]
  | .union members | .intersection members => by
      simp only [unnumbered, pushSchema, pushBranches_unnumbered members]
  | .pick target _ | .optional target | .without target _ => by
      simp only [unnumbered, pushSchema, pushSchema_unnumbered target]
  | .overwrite target patch => by
      simp only [unnumbered, pushSchema, pushSchema_unnumbered target, pushSchema_unnumbered patch]
termination_by structural schema => schema

theorem pushSchemas_unnumbered : ∀ schemas : List Schema,
    pushSchemas (unnumberedSchemas schemas) = pushSchemas schemas
  | [] => rfl
  | schema :: rest => by
      simp only [unnumberedSchemas, pushSchemas, pushSchema_unnumbered schema, pushSchemas_unnumbered rest]
termination_by structural schemas => schemas

theorem pushProperties_unnumbered : ∀ properties : List PropertyDecl,
    pushProperties (unnumberedProperties properties) = pushProperties properties
  | [] => rfl
  | ⟨_, _, _, type⟩ :: rest => by
      simp only [unnumberedProperties, pushProperties, pushSchema_unnumbered type,
        pushProperties_unnumbered rest]
termination_by structural properties => properties

theorem pushIndex_unnumbered : ∀ index : Option IndexDecl,
    pushIndex (unnumberedIndex index) = pushIndex index
  | none => rfl
  | some ⟨_, type⟩ => by simp only [unnumberedIndex, pushIndex, pushSchema_unnumbered type]
termination_by structural index => index

theorem pushBranches_unnumbered : ∀ branches : List Branch,
    pushBranches (unnumberedBranches branches) = pushBranches branches
  | [] => rfl
  | ⟨_, type⟩ :: rest => by
      simp only [unnumberedBranches, pushBranches, pushSchema_unnumbered type, pushBranches_unnumbered rest]
termination_by structural branches => branches

end

variable {named : String → Prop} {α β : Type} {first : StateM (Array Node) α}
  {next : α → StateM (Array Node) β}

/-- References that are added have targets of the given kind. -/
def Names (named : String → Prop) (run : StateM (Array Node) α) : Prop :=
  ∀ nodes (index : Nat) target, (run nodes).2[index]? = some (.reference target) →
    nodes[index]? = some (.reference target) ∨ named target

namespace Names

theorem bind (part : Names named first) (rest : ∀ answer, Names named (next answer)) :
    Names named (first >>= next) := by
  intro nodes index target found
  rcases rest _ _ index target found with earlier | known
  · exact part nodes index target earlier
  · exact .inr known

theorem pure (answer : α) : Names named (pure answer : StateM (Array Node) α) :=
  fun _ _ _ => .inl

theorem push {node : Node} (known : ∀ target, node = .reference target → named target) :
    Names named (push node) := by
  intro nodes index target found
  simp only [Arena.push, Array.getElem?_push] at found
  split at found
  · exact .inr (known target (Option.some.inj found))
  · exact .inl found

end Names

mutual

theorem pushSchema_names : ∀ schema : Schema, RefersOnly named schema → Names named (pushSchema schema)
  | .boolean, _ | .string, _ | .any, _ | .nonPrimitive, _ | .number _, _ | .literal _, _
  | .enumeration _, _ | .buffer _, _ => .push nofun
  | .reference target, only => .push fun _ same => by
      cases same
      exact only target .reference
  | .array element, only =>
      (pushSchema_names element (only.child (List.mem_singleton_self _))).bind fun _ => .push nofun
  | .tuple elements _, only =>
      (pushSchemas_names elements fun _ => only.child).bind fun _ => .push nofun
  | .interface properties index parents, only =>
      (pushProperties_names properties fun _ listed =>
        only.child (List.mem_append_left _ (List.mem_append_left _ listed))).bind fun _ =>
      (pushIndex_names index fun _ listed =>
        only.child (List.mem_append_left _ (List.mem_append_right _ listed))).bind fun _ =>
      (pushBranches_names parents fun _ listed => only.child (List.mem_append_right _ listed)).bind fun _ =>
        .push nofun
  | .indexedAccess object _, only =>
      (pushSchema_names object (only.child (List.mem_singleton_self _))).bind fun _ => .push nofun
  | .union members, only | .intersection members, only =>
      (pushBranches_names members fun _ => only.child).bind fun _ => .push nofun
  | .pick target _, only | .optional target, only | .without target _, only =>
      (pushSchema_names target (only.child (List.mem_singleton_self _))).bind fun _ => .push nofun
  | .overwrite target patch, only =>
      (pushSchema_names target (only.child (List.mem_cons_self ..))).bind fun _ =>
        (pushSchema_names patch (only.child (List.mem_cons_of_mem _ (List.mem_singleton_self _)))).bind
          fun _ => .push nofun
termination_by structural schema => schema

theorem pushSchemas_names : ∀ schemas : List Schema, (∀ schema ∈ schemas, RefersOnly named schema) →
    Names named (pushSchemas schemas)
  | [], _ => .pure _
  | schema :: rest, only =>
      (pushSchema_names schema (only schema (List.mem_cons_self ..))).bind fun _ =>
        (pushSchemas_names rest fun other listed => only other (List.mem_cons_of_mem _ listed)).bind
          fun _ => .pure _
termination_by structural schemas => schemas

theorem pushProperties_names : ∀ properties : List PropertyDecl,
    (∀ type ∈ properties.map (·.type), RefersOnly named type) → Names named (pushProperties properties)
  | [], _ => .pure _
  | ⟨_, _, _, type⟩ :: rest, only =>
      (pushSchema_names type (only type (List.mem_cons_self ..))).bind fun _ =>
        (pushProperties_names rest fun other listed => only other (List.mem_cons_of_mem _ listed)).bind
          fun _ => .pure _
termination_by structural properties => properties

theorem pushIndex_names : ∀ index : Option IndexDecl,
    (∀ type ∈ (index.map (·.type)).toList, RefersOnly named type) → Names named (pushIndex index)
  | none, _ => .pure _
  | some ⟨_, type⟩, only =>
      (pushSchema_names type (only type (List.mem_singleton_self _))).bind fun _ => .pure _
termination_by structural index => index

theorem pushBranches_names : ∀ branches : List Branch,
    (∀ type ∈ branches.map (·.type), RefersOnly named type) → Names named (pushBranches branches)
  | [], _ => .pure _
  | ⟨_, type⟩ :: rest, only =>
      (pushSchema_names type (only type (List.mem_cons_self ..))).bind fun _ =>
        (pushBranches_names rest fun other listed => only other (List.mem_cons_of_mem _ listed)).bind
          fun _ => .pure _
termination_by structural branches => branches

end

end Arena

end Conform
