import Conform.Proofs.Validator.Reachable
import Conform.Proofs.Value.Parts

/-! Failures are true of the value.  Whatever a check reports, every step of it leads
to a part that the value has, and the cause at the end of it holds of that part. -/

namespace Conform

/-- What a failure says is so for the value. -/
inductive Failure.Accurate : Value → Failure → Prop
  | wrongType {value : Value} {expected : String} (different : expected ≠ value.typeName) :
      Accurate value (.wrongType expected value.typeName)
  | wrongNumber {number : Binary64} {scalar : Scalar} :
      Accurate (.number number) (.wrongScalar scalar number.plainText)
  | wrongInteger {integer : Int} {scalar : Scalar} :
      Accurate (.bigInt integer) (.wrongScalar scalar (toString integer))
  | tupleOverlength {items : List Value} {maximum : Nat} (longer : maximum < items.length) :
      Accurate (.array items) (.tupleOverlength items.length maximum)
  | stringNotInEnum {string : String} : Accurate (.string string) .notInEnum
  | numberNotInEnum {number : Binary64} : Accurate (.number number) .notInEnum
  | notTheLiteral {value : Value} : Accurate value .notTheLiteral
  | noMatchingMember {value : Value} {failures : List Failure}
      (members : ∀ failure ∈ failures, Accurate value failure) :
      Accurate value (.noMatchingMember failures)
  | missingField {object : Object} {key : String}
      (absent : ∀ part, object.get? key = some part → part = .undefined) :
      Accurate (.object object) (.within (.field key) .missingMember)
  | unexpectedField {object : Object} {key : String} (own : key ∈ object.keys) :
      Accurate (.object object) (.within (.field key) .unexpectedField)
  | invalidNumberKey {object : Object} {key : String} (own : key ∈ object.keys)
      (other : isNumberKey key = false) :
      Accurate (.object object) (.within (.field key) .invalidNumberKey)
  | field {object : Object} {key : String} {part : Value} {cause : Failure}
      (entry : (key, part) ∈ object.entries) (accurate : Accurate part cause) :
      Accurate (.object object) (.within (.field key) cause)
  | missingItem {items : List Value} {position : Nat}
      (absent : ∀ part, items[position]? = some part → part = .undefined) :
      Accurate (.array items) (.within (.index position) .missingMember)
  | item {items : List Value} {position : Nat} {part : Value} {cause : Failure}
      (here : items[position]? = some part) (accurate : Accurate part cause) :
      Accurate (.array items) (.within (.index position) cause)
  | member {value : Value} {position : Nat} {cause : Failure} (accurate : Accurate value cause) :
      Accurate value (.within (.member position) cause)

/-- A success, or a failure that is so for the value. -/
def Outcome.AccurateFor (value : Value) : Outcome → Prop
  | .success => True
  | .failure report => report.Accurate value

namespace TypedArrayKind

theorem name_injective {first second : TypedArrayKind} (same : first.name = second.name) :
    first = second := by
  have found := ofName?_name first
  rw [same, ofName?_name] at found
  exact (Option.some.inj found).symm

theorem ne_name {name : String} (plain : ofName? name = none) (kind : TypedArrayKind) :
    name ≠ kind.name := by
  intro same
  rw [same, ofName?_name] at plain
  cases plain

end TypedArrayKind

namespace Validator

open Run Outcome

variable {options : Options} {value : Value} {items : List Value} {object : Object}
  {shape : Shape} {id element : SchemaId} {elements members : List SchemaId}
  {checkPart : Value → SchemaId → Run Outcome} {checkMember : SchemaId → Run Outcome}

theorem wrongType_accurate {expected : String} (different : expected ≠ value.typeName) :
    (wrongType expected value).AccurateFor value :=
  Failure.Accurate.wrongType different

theorem checkBoolean_accurate : (checkBoolean value).AccurateFor value := by
  cases value with
  | boolean _ => exact True.intro
  | typedArray kind _ => exact wrongType_accurate (kind.ne_name rfl)
  | _ => exact wrongType_accurate (by simp [Value.typeName])

theorem checkString_accurate : (checkString value).AccurateFor value := by
  cases value with
  | string _ => exact True.intro
  | typedArray kind _ => exact wrongType_accurate (kind.ne_name rfl)
  | _ => exact wrongType_accurate (by simp [Value.typeName])

theorem checkNonPrimitive_accurate : (checkNonPrimitive value).AccurateFor value := by
  cases value with
  | object _ | buffer _ | typedArray _ _ => exact True.intro
  | _ => exact wrongType_accurate (by simp [Value.typeName])

theorem checkNumber_accurate {scalar : Scalar} : (checkNumber scalar value).AccurateFor value := by
  cases value with
  | number number =>
      simp only [checkNumber]
      split
      · exact wrongType_accurate (by simp [Value.typeName])
      · split
        · exact Failure.Accurate.wrongNumber
        · split
          · exact Failure.Accurate.wrongNumber
          · exact True.intro
  | bigInt integer =>
      simp only [checkNumber]
      split
      · exact wrongType_accurate (by simp [Value.typeName])
      · split
        · exact Failure.Accurate.wrongInteger
        · exact True.intro
  | typedArray kind _ =>
      apply wrongType_accurate
      cases scalar.isBig <;> exact kind.ne_name rfl
  | _ => exact wrongType_accurate (by cases scalar.isBig <;> simp [Value.typeName])

theorem checkLiteral_accurate {literal : Literal} :
    (checkLiteral options literal value).AccurateFor value := by
  unfold checkLiteral
  split
  · exact True.intro
  · exact Failure.Accurate.notTheLiteral

theorem checkEnum_accurate {values : List EnumValue} :
    (checkEnum values value).AccurateFor value := by
  cases value with
  | string string =>
      simp only [checkEnum]
      split
      · exact True.intro
      · exact Failure.Accurate.stringNotInEnum
  | number number =>
      simp only [checkEnum]
      split
      · exact True.intro
      · exact Failure.Accurate.numberNotInEnum
  | typedArray kind _ => exact wrongType_accurate (kind.ne_name rfl)
  | _ => exact wrongType_accurate (by simp [Value.typeName])

theorem checkBuffer_accurate {kind : Option TypedArrayKind} :
    (checkBuffer kind value).AccurateFor value := by
  cases kind with
  | none =>
      cases value with
      | buffer _ => exact True.intro
      | typedArray kind _ => exact wrongType_accurate (kind.ne_name rfl)
      | _ => exact wrongType_accurate (by simp [Value.typeName])
  | some expected =>
      cases value with
      | typedArray actual _ =>
          simp only [checkBuffer]
          split
          · exact True.intro
          next other => exact wrongType_accurate fun same => other (TypedArrayKind.name_injective same.symm)
      | _ => exact wrongType_accurate (expected.ne_name rfl).symm

/-- The check of a part reports what is so for the part. -/
def PartsAccurate (checkPart : Value → SchemaId → Run Outcome) : Prop :=
  ∀ part id, Ensures (checkPart part id) (AccurateFor part)

section

variable (parts : PartsAccurate checkPart)

include parts

theorem checkThen_accurate {segment : Segment} {part : Value} {next : Run Outcome}
    (wraps : ∀ cause, Failure.Accurate part cause → Failure.Accurate value (.within segment cause))
    (rest : Ensures next (AccurateFor value)) :
    Ensures (checkThen checkPart segment part id next) (AccurateFor value) := by
  refine (parts part id).bind fun outcome accurate => ?_
  cases outcome with
  | success => exact rest
  | failure cause => exact .pure (wraps cause accurate)

/-- The items are those of the array from the position on. -/
theorem checkItems_accurate {whole : List Value} {position : Nat}
    (here : items = whole.drop position) :
    Ensures (checkItems checkPart element position items) (AccurateFor (.array whole)) := by
  induction items generalizing position with
  | nil => exact .pure True.intro
  | cons item rest ih =>
      have found : whole[position]? = some item := by
        rw [← List.head?_drop, ← here, List.head?_cons]
      have next : rest = whole.drop (position + 1) := by
        rw [← List.tail_drop, ← here, List.tail_cons]
      exact checkThen_accurate parts (fun _ accurate => .item found accurate) (ih next)

theorem checkArray_accurate : Ensures (checkArray checkPart element value) (AccurateFor value) := by
  cases value with
  | array items => exact checkItems_accurate parts (List.drop_zero ..).symm
  | typedArray kind _ => exact .pure (wrongType_accurate (kind.ne_name rfl))
  | _ => exact .pure (wrongType_accurate (by simp [Value.typeName]))

theorem checkPlaces_accurate {whole : List Value} {required position : Nat}
    (here : items = whole.drop position) :
    Ensures (checkPlaces checkPart required position elements items) (AccurateFor (.array whole)) := by
  induction elements generalizing position items with
  | nil => exact .pure True.intro
  | cons element elements ih =>
      have head : whole[position]? = items.head? := by rw [← List.head?_drop, ← here]
      have next : items.tail = whole.drop (position + 1) := by rw [here, List.tail_drop]
      have rest := ih next
      have absent (empty : ∀ part, items.head? = some part → part = .undefined) :
          Ensures (if position < required then
            return .failure (.within (.index position) .missingMember)
            else checkPlaces checkPart required (position + 1) elements items.tail)
            (AccurateFor (.array whole)) := by
        split
        · exact .pure (Failure.Accurate.missingItem (by simpa only [head] using empty))
        · exact rest
      simp only [checkPlaces]
      split
      · exact absent (by simp)
      · exact absent (by simp)
      next item _ _ =>
          exact checkThen_accurate parts (fun _ accurate => .item (head.trans rfl) accurate) rest

theorem checkTuple_accurate {optionalStart : Option Nat} :
    Ensures (checkTuple checkPart elements optionalStart value) (AccurateFor value) := by
  cases value with
  | array items =>
      simp only [checkTuple]
      split
      next longer => exact .pure (Failure.Accurate.tupleOverlength longer)
      next => exact checkPlaces_accurate parts (List.drop_zero ..).symm
  | typedArray kind _ => exact .pure (wrongType_accurate (kind.ne_name rfl))
  | _ => exact .pure (wrongType_accurate (by simp [Value.typeName]))

theorem checkProperties_accurate {properties : List Property} {next : Run Outcome}
    (rest : Ensures next (AccurateFor (.object object))) :
    Ensures (checkProperties checkPart options object next properties)
      (AccurateFor (.object object)) := by
  induction properties with
  | nil => exact rest
  | cons property properties ih =>
      unfold checkProperties
      split
      next part present =>
        obtain ⟨found, -⟩ := Option.filter_eq_some_iff.mp present
        exact checkThen_accurate parts
          (fun _ accurate => .field (object.mem_of_get? found) accurate) ih
      next missing =>
        split
        · exact ih
        next required =>
          apply Ensures.pure
          apply Failure.Accurate.missingField
          intro part found
          have left := Option.filter_eq_none_iff.mp missing part found
          cases part <;> simp_all [isAbsent]

theorem checkEntries_accurate {isDeclared : String → Bool} {entries : List (String × Value)}
    (own : entries ⊆ object.entries) :
    Ensures (checkEntries checkPart isDeclared id entries) (AccurateFor (.object object)) := by
  induction entries with
  | nil => exact .pure True.intro
  | cons entry rest ih =>
      have inside : entry ∈ object.entries := own (List.mem_cons_self ..)
      have next := ih (List.subset_of_cons_subset own)
      simp only [checkEntries]
      split
      · exact next
      · exact checkThen_accurate parts (fun _ accurate => .field inside accurate) next

omit parts in
theorem checkExcess_accurate {isAccounted : String → Bool} :
    (checkExcess isAccounted object.keys).AccurateFor (.object object) := by
  unfold checkExcess
  split
  next found => exact Failure.Accurate.unexpectedField (List.mem_of_find?_eq_some found)
  next => exact True.intro

omit parts in
theorem checkNumberKeys_accurate {index : Option IndexSignature} :
    (checkNumberKeys index object.keys).AccurateFor (.object object) := by
  unfold checkNumberKeys
  split
  · split
    next found =>
      have other := List.find?_some found
      exact Failure.Accurate.invalidNumberKey (List.mem_of_find?_eq_some found) (by simpa using other)
    next => exact True.intro
  · exact True.intro

theorem checkRemaining_accurate {foreign : Option ForeignFields} :
    Ensures (checkRemaining checkPart object shape foreign) (AccurateFor (.object object)) := by
  unfold checkRemaining
  split
  · exact checkEntries_accurate parts (List.Subset.refl _)
  · exact .pure checkExcess_accurate

theorem checkShape_accurate {foreign : Option ForeignFields} :
    Ensures (checkShape checkPart options object shape foreign) (AccurateFor (.object object)) := by
  have keys : (checkNumberKeys shape.index object.keys).AccurateFor (.object object) :=
    checkNumberKeys_accurate
  unfold checkShape
  split
  · exact checkProperties_accurate parts (checkRemaining_accurate parts)
  · exact .pure keys

end

theorem checkAny_accurate {failures : List Failure}
    (accurate : ∀ id, Ensures (checkMember id) (AccurateFor value))
    (earlier : ∀ failure ∈ failures, failure.Accurate value) :
    Ensures (checkAny checkMember failures members) (AccurateFor value) := by
  induction members generalizing failures with
  | nil => exact .pure (Failure.Accurate.noMatchingMember (by simpa using earlier))
  | cons member rest ih =>
      refine (accurate member).bind fun outcome reported => ?_
      cases outcome with
      | success => exact .pure True.intro
      | failure failure => exact ih (List.forall_mem_cons.mpr ⟨reported, earlier⟩)

theorem checkAll_accurate {position : Nat}
    (accurate : ∀ id, Ensures (checkMember id) (AccurateFor value)) :
    Ensures (checkAll checkMember position members) (AccurateFor value) := by
  induction members generalizing position with
  | nil => exact .pure True.intro
  | cons member rest ih =>
      refine (accurate member).bind fun outcome reported => ?_
      cases outcome with
      | success => exact ih
      | failure cause => exact .pure (Failure.Accurate.member reported)

section

variable (parts : PartsAccurate checkPart)

include parts

theorem checkInterfaceLike_accurate {foreign : Option ForeignFields}
    (unions : ∀ id, Ensures (checkMember id) (AccurateFor value)) :
    Ensures (checkInterfaceLike options checkPart value foreign checkMember id)
      (AccurateFor value) := by
  apply Ensures.of_next
  intro distributed
  cases distributed with
  | some union => exact unions union
  | none =>
      apply Ensures.of_next
      intro shape
      cases value with
      | object object => exact checkShape_accurate parts
      | typedArray kind _ => exact .pure (wrongType_accurate (kind.ne_name rfl))
      | _ => exact .pure (wrongType_accurate (by simp [Value.typeName]))

/-- By induction on the steps: every rule that stays on the value passes on what is
so for the value. -/
theorem checkWithin_accurate (steps : Nat) :
    (∀ id, Ensures (checkWithin options checkPart value steps id) (AccurateFor value)) ∧
      ∀ foreign id,
        Ensures (checkMemberWithin options checkPart value steps foreign id) (AccurateFor value) := by
  induction steps with
  | zero => exact ⟨fun _ => .fail, fun _ _ => .fail⟩
  | succ steps ih =>
      obtain ⟨own, asMember⟩ := ih
      constructor
      · intro id
        apply Ensures.of_next
        intro node
        cases node with
        | boolean => exact .pure checkBoolean_accurate
        | string => exact .pure checkString_accurate
        | any => exact .pure True.intro
        | nonPrimitive => exact .pure checkNonPrimitive_accurate
        | number scalar => exact .pure checkNumber_accurate
        | literal literal => exact .pure checkLiteral_accurate
        | enumeration values => exact .pure checkEnum_accurate
        | array element => exact checkArray_accurate parts
        | tuple elements optionalStart => exact checkTuple_accurate parts
        | buffer kind => exact .pure checkBuffer_accurate
        | reference _ | indexedAccess _ _ => exact .of_next own
        | union members =>
            exact .of_next fun foreign => checkAny_accurate (asMember foreign) (by simp)
        | intersection members =>
            exact .of_next fun foreign => checkAll_accurate (asMember foreign)
        | interface _ _ _ | mapped _ _ => exact checkInterfaceLike_accurate parts own
      · intro foreign id
        apply Ensures.of_next
        intro resolved
        apply Ensures.of_next
        intro node
        cases node with
        | union members => exact checkAny_accurate (asMember foreign) (by simp)
        | intersection members => exact checkAll_accurate (asMember foreign)
        | interface _ _ _ | mapped _ _ => exact checkInterfaceLike_accurate parts (asMember foreign)
        | _ => exact own resolved

end

theorem checkLevels_accurate (options : Options) (levels : Nat) :
    PartsAccurate (checkLevels options levels) := by
  induction levels with
  | zero => exact fun _ _ => .fail
  | succ levels ih => exact fun _ id => (checkWithin_accurate ih options.maxDepth).1 id

/-- A failure that a validator reports is so for the value, whatever calls came before. -/
theorem failures_are_accurate {validator : Validator} {failure : Failure}
    (failed : (validator.validateById value id).1 = .ok (.failure failure)) :
    failure.Accurate value := by
  have ran : check validator.options value id validator.state =
      (.ok (.failure failure), (validator.validateById value id).2.state) :=
    Prod.ext failed rfl
  exact checkLevels_accurate validator.options (value.height + 1) value id _ _ _ ran

/-- A list of tuples, of which the second begins with a string instead of a number. -/
theorem failures_are_accurate_nested :
    let tuples := ((Validator.ofRegistry .empty {}).intern
      (.array (.tuple [.number (some .int), .string] (some 0)))).2
    let value := Value.array [.array [], .array [.string "1"]]
    let failure := Failure.within (.index 1) (.within (.index 0) (.wrongType "number" "string"))
    (tuples.validateById value ⟨5⟩).1 = .ok (.failure failure) ∧ failure.Accurate value := by
  intro tuples value failure
  have failed : (tuples.validateById value ⟨5⟩).1 = .ok (.failure failure) := rfl
  exact ⟨failed, failures_are_accurate failed⟩

end Validator

end Conform
