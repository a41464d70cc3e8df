import Conform.Proofs.Schema.Reading

/-! What a schema takes from the document it is read from.  Its own document is not
nested deeper than that one, whichever form the records had there, and its numbers are
numbers of that one. -/

namespace Conform

namespace Document

/-- Nested at most `levels` deep, all numbers finite. -/
inductive Fits : Nat → Document → Prop
  | leaf {levels : Nat} {document : Document} (flat : document.depth = 0)
      (finite : ∀ number ∈ document.double?, number.isFinite = true) : Fits levels document
  | array {levels : Nat} {items : List Document} (each : ∀ item ∈ items, Fits levels item) :
      Fits (levels + 1) (.array items)
  | object {levels : Nat} {members : List (Key × Document)}
      (each : ∀ member ∈ members, Fits levels member.2) : Fits (levels + 1) (.object members)

variable {levels : Nat}

theorem double?_ofNumber (number : JsonNumber) : (ofNumber number).double? = some number.toBinary64 := by
  cases number with
  | real value => rfl
  | integer value =>
      rw [ofNumber]
      split
      · rfl
      next natural =>
        have same : value.toNat = value.natAbs := by omega
        simp [double?, JsonNumber.toBinary64, Binary64.ofNat, Binary64.ofInt, natural, same]

theorem depth_ofNumber (number : JsonNumber) : (ofNumber number).depth = 0 :=
  depth_ofJson (.number number)

theorem Fits.finite {document : Document} {number : Binary64} (fits : document.Fits levels)
    (denoted : document.double? = some number) : number.isFinite = true := by
  cases fits with
  | leaf _ finite => exact finite number denoted
  | array | object => cases denoted

theorem fits_ofJson {json : Json} (finite : json.Finite) (nested : json.depth ≤ levels) :
    (ofJson json).Fits levels := by
  induction finite generalizing levels with
  | null | bool | string | unreadable => exact .leaf rfl nofun
  | @number value finite =>
      refine .leaf (depth_ofNumber value) fun number denoted => ?_
      rw [ofJson, double?_ofNumber] at denoted
      cases denoted
      exact finite
  | @array items _ ih =>
      rw [Json.depth] at nested
      obtain ⟨below, rfl⟩ : ∃ below, levels = below + 1 := ⟨levels - 1, by omega⟩
      rw [ofJson, ofJsonItems_eq]
      refine .array (List.forall_mem_map.mpr fun item listed => ih item listed ?_)
      exact Nat.le_trans (Json.depth_item listed) (by omega)
  | @object members _ ih =>
      rw [Json.depth] at nested
      obtain ⟨below, rfl⟩ : ∃ below, levels = below + 1 := ⟨levels - 1, by omega⟩
      rw [ofJson, ofJsonMembers_eq]
      refine .object (List.forall_mem_map.mpr fun member listed => ih member listed ?_)
      exact Nat.le_trans (Json.depth_member listed) (by omega)

end Document

namespace Record

variable {α : Type} {names : List String} {fields : Fields} {document : Document} {levels : Nat}
  {members : List (Document.Key × Document)} {items : List Document}

/-- The fields of a record that is nested one level deeper. -/
def Fields.Fit (levels : Nat) (fields : Fields) : Prop :=
  ∀ field ∈ fields, field.2.Fits levels

theorem Fields.Fit.lookup {name : String} (fits : fields.Fit levels)
    (found : fields.lookup name = some document) : document.Fits levels := by
  obtain ⟨before, after, rfl, -⟩ := List.lookup_eq_some_iff.mp found
  exact fits _ (List.mem_append_right _ (List.mem_cons_self ..))

theorem pickFields_fit (picked : pickFields names members = some fields)
    (each : ∀ member ∈ members, member.2.Fits levels) : fields.Fit levels := by
  simp only [pickFields, Option.bind_eq_bind, Option.bind_eq_some_iff] at picked
  obtain ⟨found, mapped, kept⟩ := picked
  split at kept
  · cases kept
    intro field listed
    obtain ⟨slot, inside, same⟩ := List.mem_filterMap.mp listed
    obtain ⟨⟨key, value⟩, member, read⟩ := mem_of_mapM mapped slot inside
    obtain ⟨name, -, rfl⟩ := Option.map_eq_some_iff.mp read
    obtain ⟨text, -, rfl⟩ := Option.map_eq_some_iff.mp same
    exact each _ member
  · cases kept

theorem zipFields_fit (zipped : zipFields names items = some fields)
    (each : ∀ item ∈ items, item.Fits levels) : fields.Fit levels := by
  unfold zipFields at zipped
  split at zipped
  · cases zipped
    intro field listed
    exact each _ (List.of_mem_zip listed).2
  · cases zipped

theorem recordFields_fit (read : recordFields names document = some fields)
    (fits : document.Fits (levels)) : ∃ below, levels = below + 1 ∧ fields.Fit below := by
  cases fits with
  | leaf flat =>
      cases document <;> simp [Document.depth, recordFields] at flat read
  | array each => exact ⟨_, rfl, zipFields_fit read each⟩
  | object each => exact ⟨_, rfl, pickFields_fit read each⟩

/-- What is read from a document is written with no more nesting and is good. -/
def Keeps (read : Document → Option α) (write : α → Json) (good : α → Prop) : Prop :=
  ∀ levels document value, document.Fits levels → read document = some value →
    (write value).depth ≤ levels ∧ good value

section

variable {read : Document → Option α} {write : α → Json} {good : α → Prop} {name : String} {value : α}

theorem Keeps.required (keeps : Keeps read write good) (fits : fields.Fit levels)
    (given : required fields name read = some value) : (write value).depth ≤ levels ∧ good value := by
  obtain ⟨document, found, read⟩ := Option.bind_eq_some_iff.mp given
  exact keeps levels document value (fits.lookup found) read

theorem Keeps.defaulted {absent : α} (keeps : Keeps read write good) (fits : fields.Fit levels)
    (given : defaulted fields name absent read = some value) :
    value = absent ∨ (write value).depth ≤ levels ∧ good value := by
  unfold Record.defaulted at given
  split at given
  next document found =>
    exact .inr (keeps levels document value (fits.lookup found) given)
  · cases given
    exact .inl rfl

theorem Keeps.nullable {choice : Option α} (keeps : Keeps read write good) (fits : fields.Fit levels)
    (given : nullable fields name read = some choice) :
    ∀ value ∈ choice, (write value).depth ≤ levels ∧ good value := by
  unfold Record.nullable at given
  split at given
  · cases given
    exact nofun
  next document _ found =>
    obtain ⟨value, read, rfl⟩ := Option.map_eq_some_iff.mp given
    intro value here
    cases here
    exact keeps levels document value (fits.lookup found) read
  · cases given
    exact nofun

theorem Keeps.readList (keeps : Keeps read write good) :
    Keeps (readList read) (fun values => .array (values.map write))
      (fun values => ∀ value ∈ values, good value) := by
  intro levels document values fits given
  cases fits with
  | leaf flat =>
      cases document <;> simp [Document.depth, Record.readList] at flat given
  | array each =>
      have kept : ∀ value ∈ values, (write value).depth ≤ _ ∧ good value := fun value listed => by
        obtain ⟨item, inside, read⟩ := mem_of_mapM given value listed
        exact keeps _ item value (each item inside) read
      refine ⟨?_, fun value listed => (kept value listed).2⟩
      rw [Json.depth, Nat.add_le_add_iff_right, Json.depthOfItems_le, List.forall_mem_map]
      exact fun value listed => (kept value listed).1
  | object each => cases given

end

end Record

def EnumValue.Finite : EnumValue → Prop
  | .number value => value.isFinite = true
  | .string _ => True

namespace Schema

open Record

variable {levels : Nat} {readInner : Document → Option Schema}

def NumbersFinite (schema : Schema) : Prop :=
  ∀ number, schema.Mentions number → number.isFinite = true

/-- A value without containers that mentions no number. -/
theorem keeps_flat {α : Type} {read : Document → Option α} {write : α → Json}
    (flat : ∀ value, (write value).depth = 0) : Keeps read write fun _ => True :=
  fun _ _ value _ _ => ⟨by rw [flat value]; exact Nat.zero_le _, trivial⟩

theorem readEnumMember_keeps : Keeps readEnumMember enumMemberJson fun member => member.value.Finite := by
  intro levels document member fits read
  simp only [readEnumMember, Option.bind_eq_bind, Option.bind_eq_some_iff] at read
  obtain ⟨fields, record, id, identified, value, given, same⟩ := read
  cases same
  obtain ⟨below, rfl, fit⟩ := recordFields_fit record fits
  have nested : (enumMemberJson ⟨id, value⟩).depth = 1 := by
    cases value <;> rfl
  refine ⟨by omega, ?_⟩
  obtain ⟨document, found, read⟩ := Option.bind_eq_some_iff.mp given
  unfold readEnumValue at read
  split at read
  · cases read
    trivial
  · obtain ⟨number, denoted, rfl⟩ := Option.map_eq_some_iff.mp read
    exact (fit.lookup found).finite denoted

theorem readBranch_keeps (keeps : Keeps readInner toJson NumbersFinite) :
    Keeps (readBranch readInner) branchJson fun branch => branch.type.NumbersFinite := by
  intro levels document branch fits read
  simp only [readBranch, Option.bind_eq_bind, Option.bind_eq_some_iff] at read
  obtain ⟨fields, record, id, identified, type, given, same⟩ := read
  cases same
  obtain ⟨below, rfl, fit⟩ := recordFields_fit record fits
  obtain ⟨nested, finite⟩ := keeps.required fit given
  refine ⟨?_, finite⟩
  simp [branchJson, Json.depth, Json.depthOfMembers, naturalJson, nested]

theorem readProperty_keeps (keeps : Keeps readInner toJson NumbersFinite) :
    Keeps (readProperty readInner) propertyJson fun property => property.type.NumbersFinite := by
  intro levels document property fits read
  simp only [readProperty, Option.bind_eq_bind, Option.bind_eq_some_iff] at read
  obtain ⟨fields, record, id, -, name, -, isOptional, -, type, given, same⟩ := read
  cases same
  obtain ⟨below, rfl, fit⟩ := recordFields_fit record fits
  obtain ⟨nested, finite⟩ := keeps.required fit given
  refine ⟨?_, finite⟩
  cases isOptional <;> simp [propertyJson, Json.depth, Json.depthOfMembers, naturalJson, nested]

theorem readIndex_keeps (keeps : Keeps readInner toJson NumbersFinite) :
    Keeps (readIndex readInner) signatureJson fun signature => signature.type.NumbersFinite := by
  intro levels document signature fits read
  simp only [readIndex, Option.bind_eq_bind, Option.bind_eq_some_iff] at read
  obtain ⟨fields, record, keyType, -, type, given, same⟩ := read
  cases same
  obtain ⟨below, rfl, fit⟩ := recordFields_fit record fits
  obtain ⟨nested, finite⟩ := keeps.required fit given
  refine ⟨?_, finite⟩
  simp [signatureJson, Json.depth, Json.depthOfMembers, nested]

variable {kind : Kind} {fields : Fields} {schema : Schema} {written : List (String × Json)}

theorem depth_tagged : (tagged kind written).depth ≤ levels + 1 ↔
    ∀ field ∈ written, field.2.depth ≤ levels := by
  rw [tagged, Json.depth, Nat.add_le_add_iff_right, Json.depthOfMembers_le, List.forall_mem_cons]
  exact and_iff_right (Nat.zero_le _)

theorem NumbersFinite.of_children (each : ∀ child ∈ schema.children, child.NumbersFinite)
    (literal : ∀ number, schema ≠ .literal (.number number))
    (enumeration : ∀ members, schema ≠ .enumeration members) :
    schema.NumbersFinite := by
  intro number mentions
  cases mentions with
  | literal => exact (literal _ rfl).elim
  | enumeration => exact (enumeration _ rfl).elim
  | inside listed mentions => exact each _ listed number mentions

/-- A list field that is left out when it is empty. -/
theorem keeps_listField {α : Type} {read : Document → Option α} {write : α → Json} {good : α → Prop}
    {values : List α} {name : String} (keeps : Keeps read write good) (fit : fields.Fit levels)
    (given : defaulted fields name [] (readList read) = some values) :
    (∀ field ∈ listField name (values.map write), field.2.depth ≤ levels) ∧
      ∀ value ∈ values, good value := by
  rcases keeps.readList.defaulted fit given with rfl | ⟨nested, each⟩
  · exact ⟨nofun, nofun⟩
  · exact ⟨forall_listField (·.depth ≤ levels) fun _ => nested, each⟩

theorem readLiteral_finite {document : Document} {number : Binary64} (fits : document.Fits levels)
    (read : readLiteral document = some (.number number)) : number.isFinite = true := by
  unfold readLiteral at read
  split at read
  all_goals try cases read
  obtain ⟨value, denoted, same⟩ := Option.map_eq_some_iff.mp read
  cases same
  exact fits.finite denoted

theorem literal_keeps {value : Literal} (fit : fields.Fit levels)
    (given : defaulted fields "literal" .undefined readLiteral = some value) :
    (toJson (.literal value)).depth ≤ levels + 1 ∧ (Schema.literal value).NumbersFinite := by
  refine ⟨?_, fun number mentions => ?_⟩
  · cases value <;> simp [toJson, depth_tagged, presentField, literalJson, Json.depth]
  · cases mentions with
    | inside listed => cases listed
    | literal =>
        unfold defaulted at given
        split at given
        next found => exact readLiteral_finite (fit.lookup found) given
        · cases given

theorem interface_keeps {properties : List PropertyDecl} {index : Option IndexDecl}
    {parents : List Branch} (keeps : Keeps readInner toJson NumbersFinite) (fit : fields.Fit levels)
    (listed : defaulted fields "properties" [] (readList (readProperty readInner)) = some properties)
    (signed : nullable fields "indexSignature" (readIndex readInner) = some index)
    (extended : defaulted fields "extends" [] (readList (readBranch readInner)) = some parents) :
    (toJson (.interface properties index parents)).depth ≤ levels + 1 ∧
      (Schema.interface properties index parents).NumbersFinite := by
  obtain ⟨nestedProperties, inProperties⟩ := keeps_listField (readProperty_keeps keeps) fit listed
  obtain ⟨nestedParents, inParents⟩ := keeps_listField (readBranch_keeps keeps) fit extended
  have signature := (readIndex_keeps keeps).nullable fit signed
  refine ⟨?_, .of_children ?_ (by simp) (by simp)⟩
  · rw [toJson, depth_tagged, propertiesJson_eq, indexJson_eq, branchesJson_eq]
    simp only [List.forall_mem_append]
    refine ⟨⟨nestedProperties, ?_⟩, nestedParents⟩
    exact forall_presentField (·.depth ≤ levels) fun here given => (signature here given).1
  · simp only [children, List.forall_mem_append, List.forall_mem_map]
    refine ⟨⟨inProperties, ?_⟩, inParents⟩
    cases index with
    | none => exact List.forall_mem_nil _
    | some here => exact List.forall_mem_singleton.mpr (signature here rfl).2

/-- What is read from the fields takes no more than them, if this holds of the schemas inside. -/
theorem ofFields_keeps (keeps : Keeps readInner toJson NumbersFinite) (fit : fields.Fit levels)
    (read : ofFields readInner kind fields = some schema) :
    schema.toJson.depth ≤ levels + 1 ∧ schema.NumbersFinite := by
  cases kind
  all_goals simp only [ofFields, Option.bind_eq_bind, Option.bind_eq_some_iff, Option.pure_def,
    Option.some.injEq] at read
  case boolean | string | any | nonPrimitive =>
    subst read
    exact ⟨by simp [toJson, depth_tagged], .of_children (List.forall_mem_nil _) (by simp) (by simp)⟩
  case number | buffer =>
    obtain ⟨scalar, -, rfl⟩ := read
    refine ⟨?_, .of_children (List.forall_mem_nil _) (by simp) (by simp)⟩
    rw [toJson, depth_tagged]
    exact forall_presentField (·.depth ≤ levels) fun _ _ => Nat.zero_le _
  case literal =>
    obtain ⟨value, given, rfl⟩ := read
    exact literal_keeps fit given
  case enumeration =>
    obtain ⟨members, given, rfl⟩ := read
    obtain ⟨nested, finite⟩ := readEnumMember_keeps.readList.required fit given
    refine ⟨by simpa [toJson, depth_tagged] using nested, fun number mentions => ?_⟩
    cases mentions with
    | enumeration listed => exact finite _ listed
    | inside listed => cases listed
  case array | «optional» =>
    obtain ⟨target, given, rfl⟩ := read
    obtain ⟨nested, finite⟩ := keeps.required fit given
    refine ⟨by simpa [toJson, depth_tagged] using nested, ?_⟩
    exact .of_children (List.forall_mem_singleton.mpr finite) (by simp) (by simp)
  case tuple =>
    obtain ⟨elements, given, start, -, rfl⟩ := read
    obtain ⟨nested, finite⟩ := keeps.readList.required fit given
    refine ⟨?_, .of_children finite (by simp) (by simp)⟩
    rw [toJson, depth_tagged, List.forall_mem_cons, schemasJson_eq]
    exact ⟨nested, forall_presentField (·.depth ≤ levels) fun _ _ => Nat.zero_le _⟩
  case interface =>
    obtain ⟨properties, listed, index, signed, parents, extended, rfl⟩ := read
    exact interface_keeps keeps fit listed signed extended
  case reference =>
    obtain ⟨target, -, rfl⟩ := read
    exact ⟨by simp [toJson, depth_tagged, Json.depth], .of_children (List.forall_mem_nil _) (by simp) (by simp)⟩
  case indexedAccess =>
    obtain ⟨object, given, index, -, rfl⟩ := read
    obtain ⟨nested, finite⟩ := keeps.required fit given
    refine ⟨by simpa [toJson, depth_tagged, Json.depth] using nested, ?_⟩
    exact .of_children (List.forall_mem_singleton.mpr finite) (by simp) (by simp)
  case union | intersection =>
    obtain ⟨members, given, rfl⟩ := read
    obtain ⟨nested, finite⟩ := (readBranch_keeps keeps).readList.required fit given
    refine ⟨?_, .of_children (List.forall_mem_map.mpr finite) (by simp) (by simp)⟩
    rw [toJson, depth_tagged, List.forall_mem_singleton, branchesJson_eq]
    exact nested
  case pick | without =>
    obtain ⟨target, given, keys, named, rfl⟩ := read
    obtain ⟨nested, finite⟩ := keeps.required fit given
    have names : Keeps readString Json.string fun _ => True := keeps_flat fun _ => rfl
    refine ⟨?_, .of_children (List.forall_mem_singleton.mpr finite) (by simp) (by simp)⟩
    rw [toJson, depth_tagged, List.forall_mem_cons, List.forall_mem_singleton]
    exact ⟨nested, (names.readList.required fit named).1⟩
  case overwrite =>
    obtain ⟨target, given, patch, patched, rfl⟩ := read
    obtain ⟨nested, finite⟩ := keeps.required fit given
    obtain ⟨nestedPatch, finitePatch⟩ := keeps.required fit patched
    refine ⟨by simpa [toJson, depth_tagged] using And.intro nested nestedPatch, ?_⟩
    refine .of_children ?_ (by simp) (by simp)
    exact List.forall_mem_cons.mpr ⟨finite, List.forall_mem_singleton.mpr finitePatch⟩

theorem tagFields_fit {inner : Bool} {document : Document}
    (tag : tagFields inner document = some (kind, fields))
    (fits : document.Fits levels) : ∃ below, levels = below + 1 ∧ fields.Fit below := by
  cases fits with
  | leaf flat =>
      cases document <;> simp [Document.depth, tagFields] at flat tag
  | @array _ items each =>
      refine ⟨_, rfl, ?_⟩
      cases items with
      | nil => cases tag
      | cons tagged items =>
          simp only [tagFields, Option.bind_eq_bind, Option.bind_eq_some_iff] at tag
          obtain ⟨kind, -, fields, zipped, same⟩ := tag
          cases same
          exact zipFields_fit zipped (List.forall_mem_cons.mp each).2
  | @object _ members each =>
      refine ⟨_, rfl, ?_⟩
      simp only [tagFields] at tag
      split at tag
      · simp only [Option.bind_eq_bind, Option.bind_eq_some_iff] at tag
        obtain ⟨kind, -, fields, picked, same⟩ := tag
        cases same
        unfold kindFields at picked
        split at picked
        · cases picked
          exact List.forall_mem_nil _
        · exact pickFields_fit picked each
      · cases tag

theorem readWithin_keeps (count : Nat) (inner : Bool) :
    Keeps (readWithin count inner) toJson NumbersFinite := by
  induction count generalizing inner with
  | zero => exact nofun
  | succ count ih =>
      intro levels document schema fits read
      rw [readWithin] at read
      split at read
      next tag =>
        obtain ⟨below, rfl, fit⟩ := tagFields_fit tag fits
        exact ofFields_keeps (ih true) fit read
      · cases read

/-- A schema that is read from a document with finite numbers has only finite numbers,
and its own document is not nested deeper. -/
theorem ofJson?_keeps {json : Json} (finite : json.Finite) (read : ofJson? json = some schema) :
    schema.toJson.depth ≤ json.depth ∧ schema.NumbersFinite :=
  readWithin_keeps _ _ _ _ _ (Document.fits_ofJson finite (Nat.le_refl _)) read

end Schema

end Conform
