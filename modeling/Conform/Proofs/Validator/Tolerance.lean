import Mathlib.Data.List.Find
import Conform.Proofs.Shape.Names
import Conform.Validator.Basic

/-! Fields of the siblings.  A branch of a union or intersection treats an object as if the entries
were not there that only its siblings account for.  One rule does not know of siblings: under a
signature for number keys every key of the object has to be one. -/

namespace Conform

namespace Object

variable {object : Object} {key : String} {dropped : String → Bool}

/-- The object without some of its keys. -/
def without (object : Object) (dropped : String → Bool) : Object :=
  ⟨object.entries.filter fun entry => !dropped entry.1⟩

theorem keys_without (object : Object) (dropped : String → Bool) :
    (object.without dropped).keys = object.keys.filter fun key => !dropped key := by
  simp only [keys, without, List.filter_map, Function.comp_def]

theorem get?_without (kept : dropped key = false) : (object.without dropped).get? key = object.get? key := by
  obtain ⟨entries⟩ := object
  simp only [get?, without]
  induction entries with
  | nil => rfl
  | cons entry rest ih =>
      obtain ⟨present, part⟩ := entry
      by_cases same : key = present
      · subst same
        simp [kept]
      · have differ : (key == present) = false := beq_eq_false_iff_ne.mpr same
        cases gone : dropped present <;> simp [gone, List.lookup_cons, differ, ih]

end Object

namespace Shape

/-- Whether the foreign fields account for a key in place of the shape.  With an index signature of
its own the shape leaves to its siblings what they declare by name; without one, their index
signatures count as well. -/
def concedes (shape : Shape) (foreign : ForeignFields) (key : String) : Bool :=
  !shape.declares key &&
    match shape.index with
    | some _ => foreign.contains key
    | none => foreign.permits key

theorem not_conceded {shape : Shape} {key : String} (declared : shape.declares key = true)
    (foreign : ForeignFields) : shape.concedes foreign key = false := by
  simp [concedes, declared]

/-- The index signature of the shape, if there is one, accepts every key of the object that the
shape leaves to its siblings. -/
def AcceptsConceded (shape : Shape) (foreign : ForeignFields) (object : Object) : Prop :=
  ∀ signature, shape.index = some signature → ∀ key ∈ object.keys, shape.concedes foreign key = true →
    signature.accepts key = true

end Shape

namespace Validator

variable {checkPart : Value → SchemaId → Run Outcome} {options : Options} {object own : Object}
  {shape : Shape} {foreign : ForeignFields} {next : Run Outcome} {index : Option IndexSignature}
  {keys : List String}

/-- Every key is one that the signature accepts, if there is a signature. -/
theorem checkNumberKeys_success : checkNumberKeys index keys = .success ↔
    ∀ signature, index = some signature → ∀ key ∈ keys, signature.accepts key = true := by
  cases index with
  | none => simp [checkNumberKeys]
  | some signature =>
      obtain ⟨keyType, type⟩ := signature
      cases keyType with
      | string => simp [checkNumberKeys, IndexSignature.accepts]
      | number =>
          cases found : keys.find? fun key => !isNumberKey key with
          | none =>
              have numeric := List.find?_eq_none.mp found
              simpa [checkNumberKeys, IndexSignature.accepts, found] using numeric
          | some key =>
              have listed := List.mem_of_find?_eq_some found
              have other := List.find?_some found
              simp only [checkNumberKeys, IndexSignature.accepts, found, Option.map_some, if_true]
              simp only [reduceCtorEq, Option.some.injEq, forall_eq', false_iff]
              intro numeric
              simp [numeric key listed] at other

theorem checkNumberKeys_fewer {otherIndex : Option IndexSignature} {others : List String}
    (signed : index.map (·.keyType) = otherIndex.map (·.keyType)) (subset : others ⊆ keys)
    (accepted : checkNumberKeys index keys = .success) : checkNumberKeys otherIndex others = .success := by
  have same (keys : List String) : checkNumberKeys otherIndex keys = checkNumberKeys index keys := by
    simp only [checkNumberKeys, signed]
  rw [same, checkNumberKeys_success]
  exact fun signature here key listed => checkNumberKeys_success.mp accepted signature here key (subset listed)

/-- Every key is accounted for. -/
theorem checkExcess_success {isAccounted : String → Bool} :
    checkExcess isAccounted keys = .success ↔ ∀ key ∈ keys, isAccounted key = true := by
  unfold checkExcess
  split
  next extra found =>
    have present := List.mem_of_find?_eq_some found
    have unaccounted := List.find?_some found
    refine iff_of_false nofun fun all => ?_
    simp [all extra present] at unaccounted
  next all => simpa using all

theorem checkProperties_same {properties : List Property}
    (same : ∀ property ∈ properties, own.get? property.name = object.get? property.name) :
    checkProperties checkPart options object next properties =
      checkProperties checkPart options own next properties := by
  induction properties with
  | nil => rfl
  | cons property rest ih =>
      obtain ⟨here, onward⟩ := List.forall_mem_cons.mp same
      have present : presentValue options own property = presentValue options object property := by
        simp only [presentValue, here]
      simp only [checkProperties, present, ih onward]

theorem checkEntries_without (isDeclared covered : String → Bool) (type : SchemaId)
    (entries : List (String × Value)) :
    checkEntries checkPart (fun key => isDeclared key || covered key) type entries =
      checkEntries checkPart isDeclared type
        (entries.filter fun entry => !(!isDeclared entry.1 && covered entry.1)) := by
  induction entries with
  | nil => rfl
  | cons entry rest ih =>
      cases declared : isDeclared entry.1 <;> cases here : covered entry.1 <;>
        simp [checkEntries, declared, here, ih]

theorem checkExcess_without (isDeclared covered : String → Bool) (keys : List String) :
    checkExcess (fun key => isDeclared key || covered key) keys =
      checkExcess isDeclared (keys.filter fun key => !(!isDeclared key && covered key)) := by
  have same (key : String) : (!(isDeclared key || covered key)) =
      (!(!isDeclared key && covered key) && !isDeclared key) := by
    cases isDeclared key <;> cases covered key <;> rfl
  simp only [checkExcess, List.find?_filter, same, Bool.decide_and, Bool.decide_eq_true]

theorem checkRemaining_without (object : Object) (shape : Shape) (foreign : ForeignFields) :
    checkRemaining checkPart object shape (some foreign) =
      checkRemaining checkPart (object.without (shape.concedes foreign)) shape none := by
  cases index : shape.index with
  | some signature =>
      simp only [checkRemaining, index, Object.without, Option.any_some, Option.any_none, Bool.or_false]
      simp only [checkEntries_without, Shape.concedes, index]
  | none =>
      simp only [checkRemaining, index, Object.keys_without, Option.any_some, Option.any_none, Bool.or_false]
      simp only [checkExcess_without, Shape.concedes, index]

theorem checkNumberKeys_without (accepts : shape.AcceptsConceded foreign object) :
    checkNumberKeys shape.index object.keys =
      checkNumberKeys shape.index (object.without (shape.concedes foreign)).keys := by
  cases signed : shape.index with
  | none => rfl
  | some signature =>
      obtain ⟨keyType, type⟩ := signature
      cases keyType with
      | string => simp [checkNumberKeys]
      | number =>
          have numeric : ∀ key ∈ object.keys, (!isNumberKey key) =
              (!shape.concedes foreign key && !isNumberKey key) := by
            intro key listed
            cases left : shape.concedes foreign key with
            | false => rfl
            | true =>
                have accepted : isNumberKey key = true := accepts _ signed key listed left
                simp [accepted]
          simp only [checkNumberKeys, Object.keys_without, List.find?_filter, Bool.decide_and,
            Bool.decide_eq_true, List.find?_congr numeric]

/-- A branch whose index signature accepts what it leaves to its siblings does the same with an
object and with what they leave of it. -/
theorem checkShape_without (accepts : shape.AcceptsConceded foreign object) :
    checkShape checkPart options object shape (some foreign) =
      checkShape checkPart options (object.without (shape.concedes foreign)) shape none := by
  have properties : ∀ property ∈ shape.properties,
      (object.without (shape.concedes foreign)).get? property.name = object.get? property.name :=
    fun property listed => Object.get?_without <| shape.not_conceded
      (Shape.findProperty_isSome.mpr (List.mem_map_of_mem listed)) foreign
  simp only [checkShape, checkNumberKeys_without accepts, checkRemaining_without,
    checkProperties_same properties]

/-- A branch accepts an object exactly when its index signature accepts the keys that it leaves to
its siblings, and the branch would accept what they leave of the object on its own.  With such keys
the two checks agree in every failure and error as well. -/
theorem branch_leaves_fields_to_siblings (checkPart : Value → SchemaId → Run Outcome)
    (options : Options) (shape : Shape) (foreign : ForeignFields) (object : Object)
    (state : ResolverState) :
    (shape.AcceptsConceded foreign object →
      checkShape checkPart options object shape (some foreign) =
        checkShape checkPart options (object.without (shape.concedes foreign)) shape none) ∧
    ((checkShape checkPart options object shape (some foreign) state).1 = .ok .success ↔
      shape.AcceptsConceded foreign object ∧
        (checkShape checkPart options (object.without (shape.concedes foreign)) shape none state).1 =
          .ok .success) := by
  refine ⟨checkShape_without, fun accepted => ?_, fun ⟨accepts, alone⟩ => ?_⟩
  · cases keys : checkNumberKeys shape.index object.keys with
    | failure failure => simp [checkShape, keys, pure, Run.succeed] at accepted
    | success =>
        have accepts : shape.AcceptsConceded foreign object :=
          fun signature signed key listed _ => checkNumberKeys_success.mp keys signature signed key listed
        exact ⟨accepts, checkShape_without accepts ▸ accepted⟩
  · rw [checkShape_without accepts]
    exact alone

/-- An interface with a name and one for number keys, with the intersection of the two. -/
def namedList : Validator :=
  ((Validator.ofRegistry .empty {}).intern (.intersection (Branch.numbered
    [.interface [⟨0, "name", false, .string⟩] none [], .interface [] (some ⟨.number, .any⟩) []]))).2

/-- What the second of them flattens to. -/
def numberKeyed : Shape := ⟨[], some ⟨.number, ⟨4⟩⟩⟩

theorem branch_leaves_fields_to_siblings_numbered :
    let object : Object := ⟨[("0", .boolean true), ("1", .null)]⟩
    let foreign : ForeignFields := ⟨["1"], false, false⟩
    numberKeyed.AcceptsConceded foreign object ∧
      (checkShape (check {}) {} ⟨[("0", .boolean true)]⟩ numberKeyed none namedList.state).1 =
        .ok .success ∧
      (checkShape (check {}) {} object numberKeyed (some foreign) namedList.state).1 = .ok .success := by
  intro object foreign
  have accepts : numberKeyed.AcceptsConceded foreign object := by
    rintro signature ⟨⟩
    decide
  have alone : (checkShape (check {}) {} ⟨[("0", .boolean true)]⟩ numberKeyed none
      namedList.state).1 = .ok .success := rfl
  obtain ⟨_, accepted⟩ :=
    branch_leaves_fields_to_siblings (check {}) {} numberKeyed foreign object namedList.state
  exact ⟨accepts, alone, accepted.mpr ⟨accepts, alone⟩⟩

/-- A signature for number keys refuses a name that only a sibling declares, although the branch
accepts the object without it. -/
theorem number_signature_refuses_sibling_names :
    let object : Object := ⟨[("name", .string "a")]⟩
    let foreign : ForeignFields := ⟨["name"], false, true⟩
    let refused : Failure := .within (.field "name") .invalidNumberKey
    (namedList.foreignFields ⟨6⟩).1 = .ok foreign ∧ (namedList.flatten ⟨5⟩).1 = .ok numberKeyed ∧
      object.without (numberKeyed.concedes foreign) = ⟨[]⟩ ∧
      (checkShape (check {}) {} ⟨[]⟩ numberKeyed none namedList.state).1 = .ok .success ∧
      (checkShape (check {}) {} object numberKeyed (some foreign) namedList.state).1 =
        .ok (.failure refused) ∧
      (namedList.validateById (.object object) ⟨6⟩).1 =
        .ok (.failure (.within (.member 1) refused)) :=
  ⟨rfl, rfl, rfl, rfl, rfl, rfl⟩

end Validator

end Conform
