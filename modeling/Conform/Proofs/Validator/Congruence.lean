import Conform.Proofs.Agreement.Related
import Conform.Proofs.Run.Congruence
import Conform.Proofs.Value.Parts
import Conform.Validator.Structure
import Conform.Validator.Check

/-! Two checks of one value whose steps into its parts are related are related, and so are the
checks under two limits, once their recursive calls and what they ask of the resolver are.  Each
check has types of its own; a type on the one side has its counterpart on the other. -/

namespace Conform.Validator

open Run

variable (congruence : Congruence) {options : Options} {value : Value} {object : Object}
  {shape otherShape : Shape} {foreign : Option ForeignFields} {id other : SchemaId}
  {types others : List SchemaId} {ids : SchemaId → SchemaId → Prop} {next next' : Run Outcome}
  {checkPart checkPart' : Value → SchemaId → Run Outcome} {checkMember checkMember' : SchemaId → Run Outcome}

/-- The steps into the values are related, each against a type and its counterpart. -/
def PartsAcross (values : List Value) (ids : SchemaId → SchemaId → Prop)
    (checkPart checkPart' : Value → SchemaId → Run Outcome) : Prop :=
  ∀ part ∈ values, ∀ id other, ids id other → congruence.Related (checkPart part id) (checkPart' part other)

variable {congruence}

theorem PartsAcross.subset {values fewer : List Value}
    (parts : PartsAcross congruence values ids checkPart checkPart') (subset : fewer ⊆ values) :
    PartsAcross congruence fewer ids checkPart checkPart' :=
  fun part listed => parts part (subset listed)

variable (congruence)

theorem checkThen_across (segment : Segment) {part : Value}
    (first : congruence.Related (checkPart part id) (checkPart' part other))
    (rest : congruence.Related next next') :
    congruence.Related (checkThen checkPart segment part id next)
      (checkThen checkPart' segment part other next') := by
  refine congruence.bind first fun outcome => ?_
  cases outcome with
  | success => exact rest
  | failure cause => exact congruence.pure _

theorem checkItems_across (position : Nat) {items : List Value}
    (parts : PartsAcross congruence items ids checkPart checkPart') (pair : ids id other) :
    congruence.Related (checkItems checkPart id position items)
      (checkItems checkPart' other position items) := by
  induction items generalizing position with
  | nil => exact congruence.pure _
  | cons item rest ih =>
      exact checkThen_across congruence _ (parts item (List.mem_cons_self ..) id other pair)
        (ih _ (parts.subset (List.subset_cons_self ..)))

theorem checkArray_across (parts : PartsAcross congruence value.parts ids checkPart checkPart')
    (pair : ids id other) :
    congruence.Related (checkArray checkPart id value) (checkArray checkPart' other value) := by
  cases value with
  | array items => exact checkItems_across congruence 0 parts pair
  | _ => exact congruence.pure _

theorem checkPlaces_across (required position : Nat) {items : List Value}
    (parts : PartsAcross congruence items ids checkPart checkPart') (pairs : List.Forall₂ ids types others) :
    congruence.Related (checkPlaces checkPart required position types items)
      (checkPlaces checkPart' required position others items) := by
  induction pairs generalizing position items with
  | nil => exact congruence.pure _
  | @cons element counterpart rest otherRest pair _ ih =>
      have remaining := ih (position + 1) (parts.subset (List.tail_sublist items).subset)
      have absent : congruence.Related
          (if position < required then return .failure (.within (.index position) .missingMember)
            else checkPlaces checkPart required (position + 1) rest items.tail)
          (if position < required then return .failure (.within (.index position) .missingMember)
            else checkPlaces checkPart' required (position + 1) otherRest items.tail) := by
        split
        · exact congruence.pure _
        · exact remaining
      cases items with
      | nil => exact absent
      | cons item items =>
          have first := parts item (List.mem_cons_self ..) element counterpart pair
          cases item with
          | undefined => exact absent
          | _ => exact checkThen_across congruence _ first remaining

theorem checkTuple_across (optionalStart : Option Nat)
    (parts : PartsAcross congruence value.parts ids checkPart checkPart')
    (pairs : List.Forall₂ ids types others) :
    congruence.Related (checkTuple checkPart types optionalStart value)
      (checkTuple checkPart' others optionalStart value) := by
  cases value with
  | array items =>
      simp only [checkTuple, pairs.length_eq]
      split
      · exact congruence.pure _
      · exact checkPlaces_across congruence _ 0 parts pairs
  | _ => exact congruence.pure _

theorem presentValue_eq {property otherProperty : Property}
    (related : Property.Related ids property otherProperty) :
    presentValue options object property = presentValue options object otherProperty := by
  simp only [presentValue, related.name, related.optional]

theorem checkProperties_across {properties otherProperties : List Property}
    (rest : congruence.Related next next')
    (parts : PartsAcross congruence (Value.object object).parts ids checkPart checkPart')
    (related : List.Forall₂ (Property.Related ids) properties otherProperties) :
    congruence.Related (checkProperties checkPart options object next properties)
      (checkProperties checkPart' options object next' otherProperties) := by
  induction related with
  | nil => exact rest
  | @cons property otherProperty _ _ here _ ih =>
      simp only [checkProperties, presentValue_eq here]
      cases present : presentValue options object otherProperty with
      | some part =>
          obtain ⟨found, -⟩ := Option.filter_eq_some_iff.mp present
          rw [here.name]
          exact checkThen_across congruence _
            (parts part (List.mem_map_of_mem (object.mem_of_get? found)) _ _ here.type) ih
      | none =>
          simp only [here.optional, here.name]
          split
          · exact ih
          · exact congruence.pure _

theorem checkEntries_across (isDeclared : String → Bool) {entries : List (String × Value)}
    (parts : PartsAcross congruence (entries.map (·.2)) ids checkPart checkPart') (pair : ids id other) :
    congruence.Related (checkEntries checkPart isDeclared id entries)
      (checkEntries checkPart' isDeclared other entries) := by
  induction entries with
  | nil => exact congruence.pure _
  | cons entry rest ih =>
      have remaining := ih (parts.subset (List.subset_cons_self ..))
      simp only [checkEntries]
      split
      · exact remaining
      · exact checkThen_across congruence _ (parts entry.2 (List.mem_cons_self ..) id other pair) remaining

theorem checkRemaining_across
    (parts : PartsAcross congruence (Value.object object).parts ids checkPart checkPart')
    (related : Shape.Related ids shape otherShape) :
    congruence.Related (checkRemaining checkPart object shape foreign)
      (checkRemaining checkPart' object otherShape foreign) := by
  have declares : shape.declares = otherShape.declares := funext related.declares_eq
  simp only [checkRemaining, declares]
  rcases Shape.rel_cases related.index with ⟨unsigned, unsigned'⟩ | ⟨_, _, signed, signed', here⟩
  · rw [unsigned, unsigned']
    exact congruence.pure _
  · rw [signed, signed']
    exact checkEntries_across congruence _ parts here.type

theorem checkShape_across
    (parts : PartsAcross congruence (Value.object object).parts ids checkPart checkPart')
    (related : Shape.Related ids shape otherShape) :
    congruence.Related (checkShape checkPart options object shape foreign)
      (checkShape checkPart' options object otherShape foreign) := by
  simp only [checkShape, checkNumberKeys, related.keyType_eq]
  split
  · exact checkProperties_across congruence (checkRemaining_across congruence parts related) parts
      related.properties
  · exact congruence.pure _

theorem checkAny_across (failures : List Failure) (pairs : List.Forall₂ ids types others)
    (each : ∀ id other, ids id other → congruence.Related (checkMember id) (checkMember' other)) :
    congruence.Related (checkAny checkMember failures types) (checkAny checkMember' failures others) := by
  induction pairs generalizing failures with
  | nil => exact congruence.pure _
  | cons pair _ ih =>
      refine congruence.bind (each _ _ pair) fun outcome => ?_
      cases outcome with
      | success => exact congruence.pure _
      | failure failure => exact ih _

theorem checkAll_across (position : Nat) (pairs : List.Forall₂ ids types others)
    (each : ∀ id other, ids id other → congruence.Related (checkMember id) (checkMember' other)) :
    congruence.Related (checkAll checkMember position types) (checkAll checkMember' position others) := by
  induction pairs generalizing position with
  | nil => exact congruence.pure _
  | cons pair _ ih =>
      refine congruence.bind (each _ _ pair) fun outcome => ?_
      cases outcome with
      | success => exact ih _
      | failure cause => exact congruence.pure _

/-- A type among the given ones stands for itself. -/
def Itself (types : List SchemaId) (id other : SchemaId) : Prop :=
  id = other ∧ id ∈ types

theorem Itself.all (types : List SchemaId) : List.Forall₂ (Itself types) types types :=
  List.forall₂_same.mpr fun _ listed => ⟨rfl, listed⟩

/-- The steps into the values against the types are related. -/
def RelatedParts (values : List Value) (types : List SchemaId)
    (checkPart checkPart' : Value → SchemaId → Run Outcome) : Prop :=
  ∀ part ∈ values, ∀ id ∈ types, congruence.Related (checkPart part id) (checkPart' part id)

variable {congruence}

theorem RelatedParts.across {values : List Value}
    (parts : RelatedParts congruence values types checkPart checkPart') :
    PartsAcross congruence values (Itself types) checkPart checkPart' := by
  rintro part listed id _ ⟨rfl, inside⟩
  exact parts part listed id inside

variable (congruence)

theorem checkItems_related (position : Nat) {items : List Value}
    (parts : RelatedParts congruence items [id] checkPart checkPart') :
    congruence.Related (checkItems checkPart id position items)
      (checkItems checkPart' id position items) :=
  checkItems_across congruence position parts.across ⟨rfl, List.mem_singleton_self _⟩

theorem checkArray_related (parts : RelatedParts congruence value.parts [id] checkPart checkPart') :
    congruence.Related (checkArray checkPart id value) (checkArray checkPart' id value) :=
  checkArray_across congruence parts.across ⟨rfl, List.mem_singleton_self _⟩

theorem checkPlaces_related (required position : Nat) {items : List Value}
    (parts : RelatedParts congruence items types checkPart checkPart') :
    congruence.Related (checkPlaces checkPart required position types items)
      (checkPlaces checkPart' required position types items) :=
  checkPlaces_across congruence required position parts.across (Itself.all types)

theorem checkTuple_related (optionalStart : Option Nat)
    (parts : RelatedParts congruence value.parts types checkPart checkPart') :
    congruence.Related (checkTuple checkPart types optionalStart value)
      (checkTuple checkPart' types optionalStart value) :=
  checkTuple_across congruence optionalStart parts.across (Itself.all types)

theorem checkProperties_related {properties : List Property} (rest : congruence.Related next next')
    (parts : RelatedParts congruence (Value.object object).parts (properties.map (·.type)) checkPart checkPart') :
    congruence.Related (checkProperties checkPart options object next properties)
      (checkProperties checkPart' options object next' properties) :=
  checkProperties_across congruence rest parts.across
    (List.forall₂_same.mpr fun _ listed => ⟨rfl, rfl, rfl, List.mem_map_of_mem listed⟩)

theorem checkEntries_related (isDeclared : String → Bool) {entries : List (String × Value)}
    (parts : RelatedParts congruence (entries.map (·.2)) [id] checkPart checkPart') :
    congruence.Related (checkEntries checkPart isDeclared id entries)
      (checkEntries checkPart' isDeclared id entries) :=
  checkEntries_across congruence isDeclared parts.across ⟨rfl, List.mem_singleton_self _⟩

theorem checkRemaining_related
    (parts : RelatedParts congruence (Value.object object).parts shape.types checkPart checkPart') :
    congruence.Related (checkRemaining checkPart object shape foreign)
      (checkRemaining checkPart' object shape foreign) :=
  checkRemaining_across congruence parts.across (.refl fun _ listed => ⟨rfl, listed⟩)

theorem checkShape_related
    (parts : RelatedParts congruence (Value.object object).parts shape.types checkPart checkPart') :
    congruence.Related (checkShape checkPart options object shape foreign)
      (checkShape checkPart' options object shape foreign) :=
  checkShape_across congruence parts.across (.refl fun _ listed => ⟨rfl, listed⟩)

theorem checkAny_related (failures : List Failure) {members : List SchemaId}
    (each : ∀ id ∈ members, congruence.Related (checkMember id) (checkMember' id)) :
    congruence.Related (checkAny checkMember failures members) (checkAny checkMember' failures members) :=
  checkAny_across congruence failures (Itself.all members) fun id _ pair => pair.1 ▸ each id pair.2

theorem checkAll_related (position : Nat) {members : List SchemaId}
    (each : ∀ id ∈ members, congruence.Related (checkMember id) (checkMember' id)) :
    congruence.Related (checkAll checkMember position members) (checkAll checkMember' position members) :=
  checkAll_across congruence position (Itself.all members) fun id _ pair => pair.1 ▸ each id pair.2

theorem presentValue_withMaxDepth (limit : Nat) (object : Object) (property : Property) :
    presentValue (options.withMaxDepth limit) object property =
      presentValue options object property := by
  have same (value : Value) : isAbsent (options.withMaxDepth limit) property.optional value =
      isAbsent options property.optional value := by
    cases value <;> rfl
  simp only [presentValue, same]

theorem checkProperties_withMaxDepth (limit : Nat) (properties : List Property) :
    checkProperties checkPart (options.withMaxDepth limit) object next properties =
      checkProperties checkPart options object next properties := by
  induction properties with
  | nil => rfl
  | cons property rest ih => simp only [checkProperties, presentValue_withMaxDepth, ih]

/-- A shape is checked without a look at the limit. -/
theorem checkShape_withMaxDepth (limit : Nat) :
    checkShape checkPart (options.withMaxDepth limit) object shape foreign =
      checkShape checkPart options object shape foreign := by
  simp only [checkShape, checkProperties_withMaxDepth]

/-- What checks ask of the resolver, under two limits. -/
structure Operates (congruence : Congruence) (limit limit' : Nat) : Prop where
  node : ∀ id, congruence.Related (Run.node id) (Run.node id)
  resolve : ∀ id, congruence.Related (Resolver.resolve limit id) (Resolver.resolve limit' id)
  distribute : ∀ id, congruence.Related (Resolver.distribute limit id) (Resolver.distribute limit' id)
  flatten : ∀ id, congruence.Related (Resolver.flatten limit id) (Resolver.flatten limit' id)
  foreignFields : ∀ id,
    congruence.Related (Resolver.foreignFields limit id) (Resolver.foreignFields limit' id)

theorem Operates.isInterfaceLike {congruence} {limit limit' : Nat} (operates : Operates congruence limit limit')
    (id : SchemaId) :
    congruence.Related (Resolver.isInterfaceLike limit id) (Resolver.isInterfaceLike limit' id) :=
  congruence.bind (operates.resolve id) fun resolved =>
    congruence.bind (operates.node resolved) fun _ => congruence.pure _

section

variable {congruence} {limit limit' : Nat} (operates : Operates congruence limit limit')
  (parts : ∀ part ∈ value.parts, ∀ id, congruence.Related (checkPart part id) (checkPart' part id))

include operates parts

theorem checkInterfaceLike_related (options : Options) (foreign : Option ForeignFields)
    (unions : ∀ id, congruence.Related (checkMember id) (checkMember' id)) (id : SchemaId) :
    congruence.Related
      (checkInterfaceLike (options.withMaxDepth limit) checkPart value foreign checkMember id)
      (checkInterfaceLike (options.withMaxDepth limit') checkPart' value foreign checkMember' id) := by
  refine congruence.bind (operates.distribute id) fun union => ?_
  cases union with
  | some union => exact unions union
  | none =>
      refine congruence.bind (operates.flatten id) fun shape => ?_
      cases value with
      | object object =>
          simp only [checkShape_withMaxDepth]
          exact checkShape_related congruence fun part listed type _ => parts part listed type
      | _ => exact congruence.pure _

/-- Each side may have steps of its own left. -/
theorem checkStep_related (options : Options) {steps steps' : Nat}
    (own : ∀ id, congruence.Related (checkWithin (options.withMaxDepth limit) checkPart value steps id)
      (checkWithin (options.withMaxDepth limit') checkPart' value steps' id))
    (asMember : ∀ foreign id, congruence.Related
      (checkMemberWithin (options.withMaxDepth limit) checkPart value steps foreign id)
      (checkMemberWithin (options.withMaxDepth limit') checkPart' value steps' foreign id)) :
    (∀ id, congruence.Related (checkWithin (options.withMaxDepth limit) checkPart value (steps + 1) id)
        (checkWithin (options.withMaxDepth limit') checkPart' value (steps' + 1) id)) ∧
      ∀ foreign id, congruence.Related
        (checkMemberWithin (options.withMaxDepth limit) checkPart value (steps + 1) foreign id)
        (checkMemberWithin (options.withMaxDepth limit') checkPart' value (steps' + 1) foreign id) := by
  have related (types : List SchemaId) : RelatedParts congruence value.parts types checkPart checkPart' :=
    fun part listed type _ => parts part listed type
  refine ⟨fun id => congruence.bind (operates.node id) fun node => ?_, fun foreign id =>
    congruence.bind (operates.resolve id) fun resolved =>
      congruence.bind (operates.node resolved) fun node => ?_⟩
  · cases node with
    | array element => exact checkArray_related _ (related [element])
    | tuple elements optionalStart => exact checkTuple_related _ optionalStart (related elements)
    | reference _ | indexedAccess _ _ => exact congruence.bind (operates.resolve id) own
    | union members =>
        exact congruence.bind (operates.foreignFields id) fun foreign =>
          checkAny_related _ [] fun id _ => asMember foreign id
    | intersection members =>
        exact congruence.bind (operates.foreignFields id) fun foreign =>
          checkAll_related _ 0 fun id _ => asMember foreign id
    | interface _ _ _ | mapped _ _ => exact checkInterfaceLike_related operates parts options none own id
    | _ => exact congruence.pure _
  · cases node with
    | union members => exact checkAny_related _ [] fun id _ => asMember foreign id
    | intersection members => exact checkAll_related _ 0 fun id _ => asMember foreign id
    | interface _ _ _ | mapped _ _ =>
        exact checkInterfaceLike_related operates parts options (some foreign) (asMember foreign) resolved
    | _ => exact own resolved

end

section

/-- A relation that looks at one side only takes no other check to compare with. -/
theorem checkAny_self (failures : List Failure) {members : List SchemaId}
    (each : ∀ id ∈ members, congruence.Related (checkMember id) (checkMember id)) :
    congruence.Related (checkAny checkMember failures members) (checkAny checkMember failures members) :=
  checkAny_related congruence failures each

theorem checkAll_self (position : Nat) {members : List SchemaId}
    (each : ∀ id ∈ members, congruence.Related (checkMember id) (checkMember id)) :
    congruence.Related (checkAll checkMember position members) (checkAll checkMember position members) :=
  checkAll_related congruence position each

theorem checkProperties_self {properties : List Property} (rest : congruence.Related next next)
    (parts : RelatedParts congruence (Value.object object).parts (properties.map (·.type)) checkPart checkPart) :
    congruence.Related (checkProperties checkPart options object next properties)
      (checkProperties checkPart options object next properties) :=
  checkProperties_related congruence rest parts

variable {congruence} (operates : Operates congruence options.maxDepth options.maxDepth)

include operates

theorem checkInterfaceLike_self (parts : ∀ part id, congruence.Related (checkPart part id) (checkPart part id))
    (foreign : Option ForeignFields) (unions : ∀ id, congruence.Related (checkMember id) (checkMember id))
    (id : SchemaId) :
    congruence.Related (checkInterfaceLike options checkPart value foreign checkMember id)
      (checkInterfaceLike options checkPart value foreign checkMember id) :=
  checkInterfaceLike_related operates (fun part _ => parts part) options foreign unions id

variable (stops : congruence.Related (Run.fail (.depthLimitExceeded options.maxDepth) : Run Outcome)
  (Run.fail (.depthLimitExceeded options.maxDepth)))

include stops

theorem checkWithin_self (parts : ∀ part id, congruence.Related (checkPart part id) (checkPart part id))
    (steps : Nat) :
    (∀ id, congruence.Related (checkWithin options checkPart value steps id)
        (checkWithin options checkPart value steps id)) ∧
      ∀ foreign id, congruence.Related (checkMemberWithin options checkPart value steps foreign id)
        (checkMemberWithin options checkPart value steps foreign id) := by
  induction steps with
  | zero => exact ⟨fun _ => stops, fun _ _ => stops⟩
  | succ steps ih => exact checkStep_related operates (fun part _ => parts part) options ih.1 ih.2

theorem checkLevels_self (levels : Nat) (value : Value) (id : SchemaId) :
    congruence.Related (checkLevels options levels value id) (checkLevels options levels value id) := by
  induction levels generalizing value id with
  | zero => exact stops
  | succ levels ih => exact (checkWithin_self operates stops ih _).1 id

end

end Conform.Validator
