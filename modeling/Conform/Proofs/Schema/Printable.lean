import Conform.Proofs.Json.Tokens
import Conform.Proofs.Schema.Parts

/-! The document of a schema has text.  Only the numbers that the schema mentions could
fail to read back: identifiers and indices always do. -/

namespace Conform

deriving instance DecidableEq for JsonNumber

/-- The text of the number is read as the number. -/
def Binary64.ReadsBack (number : Binary64) : Prop :=
  JsonNumber.read (JsonNumber.text (.real number)) = some (some (.real number))

instance (number : Binary64) : Decidable number.ReadsBack :=
  inferInstanceAs (Decidable (_ = _))

namespace Schema

variable {schema : Schema}

theorem printable_naturalJson {value : Nat} (fits : value < pow2 64) : (naturalJson value).Printable :=
  .number (JsonNumber.read_natural fits)

theorem printable_id (id : UInt32) : (naturalJson id.toNat).Printable :=
  printable_naturalJson (Nat.lt_trans id.toNat_lt (by decide))

theorem printable_tagged {kind : Kind} {fields : List (String × Json)}
    (each : ∀ field ∈ fields, field.2.Printable) : (tagged kind fields).Printable :=
  .object (List.forall_mem_cons.mpr ⟨.string _, each⟩)

theorem printable_list {α : Type} {write : α → Json} {values : List α}
    (each : ∀ value ∈ values, (write value).Printable) : (Json.array (values.map write)).Printable :=
  .array (List.forall_mem_map.mpr each)

theorem printable_branch {branch : Branch} (type : branch.type.toJson.Printable) :
    (branchJson branch).Printable := by
  apply Json.Printable.object
  simp [printable_id, type]

theorem printable_property {property : PropertyDecl} (type : property.type.toJson.Printable) :
    (propertyJson property).Printable := by
  apply Json.Printable.object
  obtain ⟨id, name, isOptional, schema⟩ := property
  cases isOptional <;>
    simp [printable_id, Json.Printable.string, Json.Printable.bool, type]

theorem printable_signature {signature : IndexDecl} (type : signature.type.toJson.Printable) :
    (signatureJson signature).Printable := by
  apply Json.Printable.object
  simp [Json.Printable.string, type]

theorem printable_enumMember {member : EnumMember}
    (reads : ∀ number, member.value = .number number → number.ReadsBack) :
    (enumMemberJson member).Printable := by
  apply Json.Printable.object
  rw [List.forall_mem_cons, List.forall_mem_singleton]
  obtain ⟨id, value⟩ := member
  cases value with
  | number value => exact ⟨printable_id id, .number (reads value rfl)⟩
  | string value => exact ⟨printable_id id, .string value⟩

theorem printable_interface {properties : List PropertyDecl} {index : Option IndexDecl}
    {parents : List Branch} (inside : ∀ child ∈ (Schema.interface properties index parents).children,
      child.toJson.Printable) : (toJson (.interface properties index parents)).Printable := by
  simp only [children, List.forall_mem_append, List.forall_mem_map] at inside
  obtain ⟨⟨inProperties, inIndex⟩, inParents⟩ := inside
  rw [toJson, propertiesJson_eq, indexJson_eq, branchesJson_eq]
  apply printable_tagged
  simp only [List.forall_mem_append]
  refine ⟨⟨forall_listField Json.Printable fun _ => printable_list fun property listed =>
      printable_property (inProperties property listed),
    forall_presentField Json.Printable fun signature here => ?_⟩,
    forall_listField Json.Printable fun _ => printable_list fun branch listed =>
      printable_branch (inParents branch listed)⟩
  apply printable_signature
  rw [Option.mem_def] at here
  exact inIndex signature.type (by simp [here])

theorem printable_literal {value : Literal}
    (reads : ∀ number, (Schema.literal value).Mentions number → number.ReadsBack) :
    (toJson (.literal value)).Printable := by
  apply printable_tagged
  cases value with
  | undefined => exact nofun
  | null => exact List.forall_mem_singleton.mpr .null
  | boolean value => exact List.forall_mem_singleton.mpr (.bool value)
  | number value => exact List.forall_mem_singleton.mpr (.number (reads value .literal))
  | string value => exact List.forall_mem_singleton.mpr (.string value)

/-- A schema has text when the numbers that it mentions read back. -/
theorem printable_toJson (schema : Schema) :
    (∀ number, schema.Mentions number → number.ReadsBack) → schema.toJson.Printable := by
  have step : Inherited fun schema =>
      (∀ number, schema.Mentions number → number.ReadsBack) → schema.toJson.Printable := by
    intro schema ih reads
    have inside : ∀ child ∈ schema.children, child.toJson.Printable := fun child listed =>
      ih child listed fun number mentions => reads number (.inside listed mentions)
    cases schema with
    | boolean | string | any | nonPrimitive => exact printable_tagged nofun
    | number | buffer => exact printable_tagged (forall_presentField Json.Printable fun _ _ => .string _)
    | literal value => exact printable_literal reads
    | enumeration members =>
        apply printable_tagged
        refine List.forall_mem_singleton.mpr (printable_list fun member listed => ?_)
        apply printable_enumMember
        rintro number same
        obtain ⟨id, value⟩ := member
        cases same
        exact reads number (.enumeration listed)
    | array element | «optional» element =>
        rw [toJson]
        exact printable_tagged (List.forall_mem_singleton.mpr (inside _ (List.mem_singleton_self _)))
    | tuple elements start =>
        rw [toJson, schemasJson_eq]
        apply printable_tagged
        refine List.forall_mem_cons.mpr
          ⟨printable_list inside, forall_presentField Json.Printable fun index _ => ?_⟩
        exact printable_naturalJson index.toNat_lt
    | interface properties index parents => exact printable_interface inside
    | reference target => exact printable_tagged (List.forall_mem_singleton.mpr (.string target))
    | indexedAccess object index =>
        rw [toJson]
        apply printable_tagged
        simpa using And.intro (inside object (List.mem_singleton_self _)) (Json.Printable.string index)
    | union members | intersection members =>
        rw [toJson, branchesJson_eq]
        apply printable_tagged
        refine List.forall_mem_singleton.mpr (printable_list fun branch listed => ?_)
        exact printable_branch (inside _ (List.mem_map_of_mem listed))
    | pick target keys | without target keys =>
        rw [toJson]
        apply printable_tagged
        rw [List.forall_mem_cons, List.forall_mem_singleton]
        exact ⟨inside target (List.mem_singleton_self _), printable_list fun key _ => .string key⟩
    | overwrite target patch =>
        rw [toJson]
        apply printable_tagged
        rw [List.forall_mem_cons, List.forall_mem_singleton]
        exact ⟨inside target (List.mem_cons_self ..),
          inside patch (List.mem_cons_of_mem _ (List.mem_singleton_self _))⟩
  exact step.all schema

end Schema

end Conform
