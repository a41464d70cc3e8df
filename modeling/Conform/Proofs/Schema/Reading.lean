import Conform.Proofs.Json.Finite
import Conform.Proofs.Schema.Parts
import Conform.Schema.Decode

/-! Schemas read back from their documents.  The tag of a document selects the fields
that were written, and each of them is read as what it was written from. -/

namespace Conform

namespace Document

variable {json : Json}

theorem ofJsonItems_eq (items : List Json) : ofJsonItems items = items.map ofJson := by
  induction items with
  | nil => rfl
  | cons item rest ih => rw [ofJsonItems, ih, List.map_cons]

theorem ofJsonMembers_eq (members : List (String × Json)) :
    ofJsonMembers members = members.map fun (name, item) => (.name name, ofJson item) := by
  induction members with
  | nil => rfl
  | cons member rest ih =>
      obtain ⟨name, item⟩ := member
      rw [ofJsonMembers, ih, List.map_cons]

mutual

theorem depth_ofJson : ∀ json, (ofJson json).depth = json.depth
  | .null | .bool _ | .string _ | .unreadable => rfl
  | .number value => by
      cases value with
      | integer value => by_cases negative : value < 0 <;> simp [ofJson, ofNumber, negative, depth, Json.depth]
      | real value => rfl
  | .array items => by rw [ofJson, depth, Json.depth, depth_ofJsonItems items]
  | .object members => by rw [ofJson, depth, Json.depth, depth_ofJsonMembers members]
termination_by structural json => json

theorem depth_ofJsonItems : ∀ items, depthOfItems (ofJsonItems items) = Json.depthOfItems items
  | [] => rfl
  | item :: rest => by
      rw [ofJsonItems, depthOfItems, Json.depthOfItems, depth_ofJson item, depth_ofJsonItems rest]
termination_by structural items => items

theorem depth_ofJsonMembers : ∀ members,
    depthOfMembers (ofJsonMembers members) = Json.depthOfMembers members
  | [] => rfl
  | (name, item) :: rest => by
      rw [ofJsonMembers, depthOfMembers, Json.depthOfMembers, depth_ofJson item,
        depth_ofJsonMembers rest]
termination_by structural members => members

end

end Document

namespace Record

variable {α : Type} {names : List String} {fields : Fields}

/-- The members of an object that gives the fields by name. -/
def named (fields : Fields) : List (Document.Key × Document) :=
  fields.map fun (name, value) => (.name name, value)

theorem fieldOf_each (names : List String) (fields : Fields) :
    (named fields).mapM (fun (key, value) => (fieldOf names key).map fun name => name.map (·, value)) =
      some (fields.map fun field => if names.contains field.1 then some field else none) := by
  induction fields with
  | nil => rfl
  | cons field rest ih =>
      simp only [named, List.map_cons, List.mapM_cons] at ih ⊢
      rw [ih]
      by_cases known : field.1 ∈ names <;> simp [fieldOf, known]

theorem pickFields_kept (names : List String) (fields : Fields)
    (distinct : ((fields.filter fun field => names.contains field.1).map (·.1)).Nodup) :
    pickFields names (named fields) = some (fields.filter fun field => names.contains field.1) := by
  have kept : (fields.map fun field => if names.contains field.1 then some field else none).filterMap id =
      fields.filter fun field => names.contains field.1 := by
    rw [List.filterMap_map, ← List.filterMap_eq_filter]
    rfl
  simp only [pickFields, fieldOf_each, Option.bind_eq_bind, Option.bind_some, kept, distinct, if_true]

/-- Fields of the record, in its order, are picked as they are. -/
theorem pickFields_named (sorted : (fields.map (·.1)).Sublist names) (distinct : names.Nodup) :
    pickFields names (named fields) = some fields := by
  have all : fields.filter (fun field => names.contains field.1) = fields := by
    rw [List.filter_eq_self]
    intro field listed
    exact List.elem_iff.mpr (sorted.subset (List.mem_map_of_mem listed))
  rw [pickFields_kept names fields (by rw [all]; exact distinct.sublist sorted), all]

end Record

namespace Schema

open Record

variable {α : Type} {levels : Nat}

/-- The fields of a document. -/
def documents (fields : List (String × Json)) : Fields :=
  fields.map fun (name, json) => (name, .ofJson json)

theorem documents_cons (name : String) (json : Json) (fields : List (String × Json)) :
    documents ((name, json) :: fields) = (name, .ofJson json) :: documents fields :=
  rfl

theorem ofJson_object (fields : List (String × Json)) :
    Document.ofJson (.object fields) = .object (named (documents fields)) := by
  rw [Document.ofJson, Document.ofJsonMembers_eq, named, documents, List.map_map]
  rfl

theorem fieldNames_distinct (kind : Kind) : (fieldNames kind).Nodup ∧ "type" ∉ fieldNames kind := by
  cases kind <;> decide

theorem tagFields_tagged {kind : Kind} {fields : List (String × Json)}
    (sorted : (fields.map (·.1)).Sublist (fieldNames kind)) (inner : Bool) :
    tagFields inner (.ofJson (tagged kind fields)) = some (kind, documents fields) := by
  obtain ⟨distinct, tagless⟩ := fieldNames_distinct kind
  have names : (documents fields).map (·.1) = fields.map (·.1) := by
    simp [documents]
  have others : ∀ field ∈ documents fields, field.1 ≠ "type" := by
    rintro field listed same
    exact tagless (sorted.subset (names ▸ same ▸ List.mem_map_of_mem listed))
  have untagged : (named (documents fields)).filter (fun (key, _) => key == .name "type") = [] := by
    rw [List.filter_eq_nil_iff]
    intro member listed
    obtain ⟨field, inside, rfl⟩ := List.mem_map.mp listed
    simpa using others field inside
  have picked : kindFields kind (named (documents (("type", .string kind.name) :: fields))) =
      some (documents fields) := by
    unfold kindFields
    split
    next none =>
      rw [none, List.sublist_nil, List.map_eq_nil_iff] at sorted
      rw [sorted]
      rfl
    next =>
      have kept : (documents (("type", .string kind.name) :: fields)).filter
          (fun field => (fieldNames kind).contains field.1) = documents fields := by
        rw [documents_cons, List.filter_cons_of_neg (by simpa using tagless), List.filter_eq_self]
        intro field listed
        exact List.elem_iff.mpr (sorted.subset (names ▸ List.mem_map_of_mem listed))
      rw [pickFields_kept _ _ (by rw [kept, names]; exact distinct.sublist sorted), kept]
  rw [tagged, ofJson_object, tagFields]
  have tag : (named (documents (("type", .string kind.name) :: fields))).filter
      (fun (key, _) => key == .name "type") = [(.name "type", .string kind.name)] := by
    rw [documents_cons, named, List.map_cons, List.filter_cons_of_pos (by simp)]
    exact congrArg _ untagged
  simp [tag, readKind, Kind.ofName?_name, picked]

theorem recordFields_written {names : List String} {fields : List (String × Json)}
    (sorted : (fields.map (·.1)).Sublist names) (distinct : names.Nodup) :
    recordFields names (.ofJson (.object fields)) = some (documents fields) := by
  rw [ofJson_object]
  apply pickFields_named _ distinct
  simpa [documents, Function.comp_def] using sorted

theorem readList_written {read : Document → Option α} {write : α → Json} {values : List α}
    (each : ∀ value ∈ values, read (.ofJson (write value)) = some value) :
    readList read (.ofJson (.array (values.map write))) = some values := by
  rw [Document.ofJson, Document.ofJsonItems_eq, List.map_map]
  exact mapM_written each

theorem ofJson_natural (value : Nat) : Document.ofJson (naturalJson value) = .natural value := by
  simp [naturalJson, Document.ofJson, Document.ofNumber]

theorem readId_written (id : UInt32) : readId (.ofJson (naturalJson id.toNat)) = some id := by
  have small : id.toNat < pow2 32 := id.toNat_lt
  simp [ofJson_natural, readId, readNatural, Document.natural?, small]

theorem readLiteral_written {literal : Literal} {json : Json} (written : literalJson literal = some json) :
    readLiteral (.ofJson json) = some literal := by
  cases literal <;> cases written <;> rfl

theorem readEnumMember_written (member : EnumMember) :
    readEnumMember (.ofJson (enumMemberJson member)) = some member := by
  obtain ⟨id, value⟩ := member
  have fields : recordFields ["id", "value"] (.ofJson (enumMemberJson ⟨id, value⟩)) = _ :=
    recordFields_written (List.Sublist.refl _) (by decide)
  rw [readEnumMember, fields]
  cases value <;>
    simp [documents, defaulted, required, readId_written, Document.ofJson, readEnumValue,
      Document.ofNumber, Document.double?, List.lookup_cons]

section

variable {readInner : Document → Option Schema}

theorem readBranch_written {branch : Branch}
    (inner : readInner (.ofJson branch.type.toJson) = some branch.type) :
    readBranch readInner (.ofJson (branchJson branch)) = some branch := by
  obtain ⟨id, type⟩ := branch
  have fields : recordFields ["id", "type"] (.ofJson (branchJson ⟨id, type⟩)) = _ :=
    recordFields_written (List.Sublist.refl _) (by decide)
  rw [readBranch, fields]
  simp [documents, defaulted, required, readId_written, inner, List.lookup_cons]

theorem readProperty_written {property : PropertyDecl}
    (inner : readInner (.ofJson property.type.toJson) = some property.type) :
    readProperty readInner (.ofJson (propertyJson property)) = some property := by
  obtain ⟨id, name, isOptional, type⟩ := property
  have fields : recordFields ["id", "name", "optional", "type"]
      (.ofJson (propertyJson ⟨id, name, isOptional, type⟩)) = _ :=
    recordFields_written (by cases isOptional <;> simp) (by decide)
  rw [readProperty, fields]
  cases isOptional <;>
    simp [documents, defaulted, required, readId_written, inner, List.lookup_cons, Document.ofJson,
      readString, readBool]

theorem readIndex_written {signature : IndexDecl}
    (inner : readInner (.ofJson signature.type.toJson) = some signature.type) :
    readIndex readInner (.ofJson (signatureJson signature)) = some signature := by
  obtain ⟨keyType, type⟩ := signature
  have fields : recordFields ["keyType", "type"] (.ofJson (signatureJson ⟨keyType, type⟩)) = _ :=
    recordFields_written (List.Sublist.refl _) (by decide)
  rw [readIndex, fields]
  cases keyType <;>
    simp [documents, required, inner, List.lookup_cons, Document.ofJson, readInnerName, KeyType.name,
      KeyType.ofName?]

end

theorem lookup_presentField (name other : String) (written : Option Json) :
    (documents (presentField name written)).lookup other =
      if other = name then written.map .ofJson else none := by
  cases written with
  | none => simp [presentField, documents]
  | some json =>
      by_cases same : other = name
      · simp [presentField, documents, same]
      · simp [presentField, documents, List.lookup_cons, same, beq_false_of_ne same]

theorem listField_eq (name : String) (items : List Json) :
    listField name items = presentField name (if items = [] then none else some (.array items)) := by
  cases items <;> rfl

theorem defaulted_written {fields : Fields} {name : String} {read : Document → Option α}
    {write : α → Json} {values : List α}
    (found : fields.lookup name =
      (if values.map write = [] then none else some (.array (values.map write))).map Document.ofJson)
    (each : ∀ value ∈ values, read (.ofJson (write value)) = some value) :
    defaulted fields name [] (readList read) = some values := by
  rw [defaulted, found]
  by_cases none : values.map write = []
  · simp_all
  · simp only [none, if_false, Option.map_some]
    exact readList_written each

theorem nullable_written {fields : Fields} {name : String} {read : Document → Option α}
    (write : α → Json) (value : Option α)
    (found : fields.lookup name = (value.map write).map Document.ofJson)
    (visible : ∀ here, Document.ofJson (write here) ≠ .null)
    (each : ∀ here ∈ value, read (.ofJson (write here)) = some here) :
    nullable fields name read = some value := by
  rw [nullable, found]
  cases value with
  | none => rfl
  | some here =>
      simp only [Option.map_some]
      split
      next null => exact (visible here (Option.some.inj null)).elim
      next given =>
        cases given
        rw [each here rfl, Option.map_some]
      next missing => cases missing

/-- The fields that are written for a schema are read as the schema. -/
def Rereads (readInner : Document → Option Schema) (schema : Schema) : Prop :=
  ∃ fields, schema.toJson = tagged schema.kind fields ∧
    (fields.map (·.1)).Sublist (fieldNames schema.kind) ∧
    ofFields readInner schema.kind (documents fields) = some schema

variable {readInner : Document → Option Schema}

theorem number_rereads (scalar : Option Scalar) : Rereads readInner (.number scalar) := by
  refine ⟨_, rfl, ?_, ?_⟩
  · cases scalar <;> simp [presentField, fieldNames, kind]
  · simp only [ofFields, kind]
    rw [nullable_written (fun family => .string family.name) scalar (by simp [lookup_presentField])
      (fun _ => nofun) fun family _ => Scalar.ofName?_name family]
    rfl

theorem buffer_rereads (element : Option TypedArrayKind) : Rereads readInner (.buffer element) := by
  refine ⟨_, rfl, ?_, ?_⟩
  · cases element <;> simp [presentField, fieldNames, kind]
  · simp only [ofFields, kind]
    rw [nullable_written (fun element => .string element.name) element (by simp [lookup_presentField])
      (fun _ => nofun) fun element _ => TypedArrayKind.ofName?_name element]
    rfl

theorem literal_rereads (value : Literal) : Rereads readInner (.literal value) := by
  refine ⟨_, rfl, ?_, ?_⟩
  · cases value <;> simp [presentField, literalJson, fieldNames, kind]
  · cases written : literalJson value with
    | none => cases value <;> cases written; rfl
    | some json => simp [ofFields, kind, defaulted, lookup_presentField, readLiteral_written written]

theorem tuple_rereads {elements : List Schema} (optionalStart : Option UInt64)
    (inner : ∀ child ∈ elements, readInner (.ofJson child.toJson) = some child) :
    Rereads readInner (.tuple elements optionalStart) := by
  refine ⟨_, by rw [toJson]; rfl, ?_, ?_⟩
  · cases optionalStart <;> simp [presentField, fieldNames, kind]
  · have listed : readList readInner (.ofJson (.array (elements.map toJson))) = some elements :=
      readList_written inner
    cases optionalStart with
    | none =>
        simp [ofFields, kind, required, nullable, documents, presentField, schemasJson_eq, listed,
          List.lookup_cons]
    | some start =>
        have small : start.toNat < pow2 64 := start.toNat_lt
        simp [ofFields, kind, required, nullable, documents, presentField, schemasJson_eq, listed,
          List.lookup_cons, ofJson_natural, readNatural, Document.natural?, small]

theorem interface_rereads {properties : List PropertyDecl} {index : Option IndexDecl}
    {parents : List Branch} (inner : ∀ child ∈ (Schema.interface properties index parents).children,
      readInner (.ofJson child.toJson) = some child) :
    Rereads readInner (.interface properties index parents) := by
  refine ⟨_, by rw [toJson]; rfl, ?_, ?_⟩
  · cases properties <;> cases index <;> cases parents <;>
      simp [propertiesJson_eq, indexJson_eq, branchesJson_eq, listField, presentField, fieldNames, kind]
  · simp only [children, List.forall_mem_append, List.forall_mem_map] at inner
    obtain ⟨⟨inProperties, inIndex⟩, inParents⟩ := inner
    have split (first second third : List (String × Json)) :
        documents (first ++ second ++ third) = documents first ++ documents second ++ documents third := by
      simp [documents]
    simp only [ofFields, kind, split, propertiesJson_eq, indexJson_eq, branchesJson_eq]
    rw [defaulted_written (by simp [List.lookup_append, listField_eq, lookup_presentField])
        fun property listed => readProperty_written (inProperties property listed),
      nullable_written signatureJson index
        (by simp [List.lookup_append, listField_eq, lookup_presentField])
        (fun _ => by simp [signatureJson, ofJson_object])
        fun signature here => readIndex_written (inIndex signature.type (by
          rw [Option.mem_def] at here
          simp [here])),
      defaulted_written (by simp [List.lookup_append, listField_eq, lookup_presentField])
        fun branch listed => readBranch_written (inParents branch listed)]
    rfl

/-- The fields of a schema are read as the schema, if its children are read. -/
theorem ofFields_written (schema : Schema)
    (inner : ∀ child ∈ schema.children, readInner (.ofJson child.toJson) = some child) :
    Rereads readInner schema := by
  cases schema with
  | boolean | string | any | nonPrimitive => exact ⟨[], rfl, List.Sublist.refl _, rfl⟩
  | number scalar => exact number_rereads scalar
  | buffer element => exact buffer_rereads element
  | literal value => exact literal_rereads value
  | tuple elements optionalStart => exact tuple_rereads optionalStart inner
  | interface properties index parents => exact interface_rereads inner
  | enumeration members =>
      refine ⟨_, rfl, List.Sublist.refl _, ?_⟩
      have listed := readList_written fun member (_ : member ∈ members) => readEnumMember_written member
      simp [ofFields, kind, required, documents, listed]
  | array element =>
      simp only [children, List.forall_mem_singleton] at inner
      refine ⟨_, by rw [toJson]; rfl, List.Sublist.refl _, ?_⟩
      simp [ofFields, kind, required, documents, inner]
  | reference target =>
      refine ⟨_, rfl, List.Sublist.refl _, ?_⟩
      simp [ofFields, kind, required, documents, Document.ofJson, readString]
  | indexedAccess object index =>
      simp only [children, List.forall_mem_singleton] at inner
      refine ⟨_, by rw [toJson]; rfl, List.Sublist.refl _, ?_⟩
      simp [ofFields, kind, required, documents, List.lookup_cons, inner, Document.ofJson, readString]
  | union members | intersection members =>
      refine ⟨_, by rw [toJson]; rfl, List.Sublist.refl _, ?_⟩
      have listed := readList_written fun branch inside =>
        readBranch_written (inner branch.type (List.mem_map_of_mem inside))
      simp [ofFields, kind, required, documents, branchesJson_eq, listed]
  | pick target keys | without target keys =>
      simp only [children, List.forall_mem_singleton] at inner
      refine ⟨_, by rw [toJson]; rfl, List.Sublist.refl _, ?_⟩
      have names : readList readString (.ofJson (namesJson keys)) = some keys :=
        readList_written fun _ _ => rfl
      simp [ofFields, kind, required, documents, List.lookup_cons, inner, names]
  | «optional» target =>
      simp only [children, List.forall_mem_singleton] at inner
      refine ⟨_, by rw [toJson]; rfl, List.Sublist.refl _, ?_⟩
      simp [ofFields, kind, required, documents, inner]
  | overwrite target patch =>
      simp only [children, List.forall_mem_cons] at inner
      refine ⟨_, by rw [toJson]; rfl, List.Sublist.refl _, ?_⟩
      simp [ofFields, kind, required, documents, List.lookup_cons, inner.1, inner.2.1]

/-- A schema reads back from its document. -/
theorem readWithin_written (schema : Schema) : ∀ levels inner, schema.toJson.depth ≤ levels →
    readWithin levels inner (.ofJson schema.toJson) = some schema := by
  have step : Inherited fun schema => ∀ levels inner, schema.toJson.depth ≤ levels →
      readWithin levels inner (.ofJson schema.toJson) = some schema := by
    intro schema ih levels inner enough
    cases levels with
    | zero => exact absurd (depth_positive schema) (by omega)
    | succ levels =>
        obtain ⟨fields, written, sorted, read⟩ := ofFields_written schema fun child listed => by
          have less := depth_child listed
          exact ih child listed levels true (by omega)
        rw [written, readWithin, tagFields_tagged sorted]
        exact read
  exact step.all schema

theorem ofJson?_toJson (schema : Schema) : ofJson? schema.toJson = some schema :=
  readWithin_written schema _ _ (Nat.le_of_eq (Document.depth_ofJson _).symm)

end Schema

end Conform
