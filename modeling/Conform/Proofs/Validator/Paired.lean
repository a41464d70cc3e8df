import Conform.Proofs.Run.Pairing
import Conform.Proofs.Validator.Congruence

/-! Two checks side by side.  Related schemas are checked with the same outcome, as soon as each operation
of resolution does the same with related nodes. -/

namespace Conform

open Run

/-- The operations of resolution do the same with related nodes. -/
structure Run.Pairing.Resolves (pairing : Pairing) (limit : Nat) : Prop where
  resolve : ∀ {world id other}, pairing.ids world id other →
    pairing.SameId world (Resolver.resolve limit id) (Resolver.resolve limit other)
  distribute : ∀ {world id other}, pairing.ids world id other →
    pairing.Related world (Resolver.distribute limit id) (Resolver.distribute limit other)
      fun union otherUnion later => Option.Rel (pairing.ids later) union otherUnion
  flatten : ∀ {world id other}, pairing.ids world id other →
    pairing.SameShape world (Resolver.flatten limit id) (Resolver.flatten limit other)
  foreignFields : ∀ {world id other}, pairing.ids world id other →
    pairing.Same world (Resolver.foreignFields limit id) (Resolver.foreignFields limit other)

namespace Validator

variable (pairing : Pairing) {world : pairing.World} {steps : Nat} {id other : SchemaId}
  {ids others : List SchemaId} {shape otherShape : Shape} {options : Options} {value : Value} {object : Object}
  {check checkOther : Value → SchemaId → Run Outcome}
  {checkMember checkMemberOther : SchemaId → Run Outcome} {next nextOther : Run Outcome}

def MembersPaired (checkMember checkMemberOther : SchemaId → Run Outcome) : Prop :=
  ∀ {world id other}, pairing.ids world id other →
    pairing.Same world (checkMember id) (checkMemberOther other)

def PartsPaired (check checkOther : Value → SchemaId → Run Outcome) : Prop :=
  ∀ {world id other}, pairing.ids world id other → ∀ part,
    pairing.Same world (check part id) (checkOther part other)

theorem checkAny_paired (members : MembersPaired pairing checkMember checkMemberOther)
    (failures : List Failure) (related : List.Forall₂ (pairing.ids world) ids others) :
    pairing.Same world (checkAny checkMember failures ids) (checkAny checkMemberOther failures others) := by
  induction ids generalizing world others failures with
  | nil =>
      cases related
      exact pairing.same _
  | cons id rest ih =>
      obtain ⟨other, otherRest, here, rest_related, rfl⟩ := List.forall₂_cons_left_iff.mp related
      refine pairing.bind (members here) ?_
      rintro outcome _ middle grown rfl
      cases outcome with
      | success => exact pairing.same _
      | failure failure => exact ih _ (rest_related.imp (pairing.widen grown))

theorem checkAll_paired (members : MembersPaired pairing checkMember checkMemberOther)
    (position : Nat) (related : List.Forall₂ (pairing.ids world) ids others) :
    pairing.Same world (checkAll checkMember position ids) (checkAll checkMemberOther position others) := by
  induction ids generalizing world others position with
  | nil =>
      cases related
      exact pairing.same _
  | cons id rest ih =>
      obtain ⟨other, otherRest, here, rest_related, rfl⟩ := List.forall₂_cons_left_iff.mp related
      refine pairing.bind (members here) ?_
      rintro outcome _ middle grown rfl
      cases outcome with
      | success => exact ih _ (rest_related.imp (pairing.widen grown))
      | failure cause => exact pairing.same _

theorem checkThen_paired (parts : PartsPaired pairing check checkOther) (related : pairing.ids world id other)
    (segment : Segment) (part : Value)
    (rest : ∀ later, pairing.Extends world later → pairing.Same later next nextOther) :
    pairing.Same world (checkThen check segment part id next)
      (checkThen checkOther segment part other nextOther) := by
  refine pairing.bind (parts related part) ?_
  rintro outcome _ middle grown rfl
  cases outcome with
  | success => exact rest middle grown
  | failure cause => exact pairing.same _

theorem checkItems_paired (parts : PartsPaired pairing check checkOther) (position : Nat)
    (items : List Value) (related : pairing.ids world id other) :
    pairing.Same world (checkItems check id position items) (checkItems checkOther other position items) := by
  induction items generalizing world position with
  | nil => exact pairing.same _
  | cons item rest ih =>
      exact checkThen_paired pairing parts related _ item fun later grown =>
        ih _ (pairing.widen grown _ _ related)

theorem checkArray_paired (parts : PartsPaired pairing check checkOther) (related : pairing.ids world id other) :
    pairing.Same world (checkArray check id value) (checkArray checkOther other value) := by
  cases value with
  | array items => exact checkItems_paired pairing parts 0 items related
  | _ => exact pairing.same _

theorem checkPlaces_paired (parts : PartsPaired pairing check checkOther) (required position : Nat)
    (items : List Value) (related : List.Forall₂ (pairing.ids world) ids others) :
    pairing.Same world (checkPlaces check required position ids items)
      (checkPlaces checkOther required position others items) := by
  induction ids generalizing world others position items with
  | nil =>
      cases related
      exact pairing.same _
  | cons id rest ih =>
      obtain ⟨other, otherRest, here, rest_related, rfl⟩ := List.forall₂_cons_left_iff.mp related
      have onward (later : pairing.World) (grown : pairing.Extends world later) :=
        ih (position + 1) items.tail (rest_related.imp (pairing.widen grown))
      have absent : pairing.Same world
          (if position < required then return .failure (.within (.index position) .missingMember)
            else checkPlaces check required (position + 1) rest items.tail)
          (if position < required then return .failure (.within (.index position) .missingMember)
            else checkPlaces checkOther required (position + 1) otherRest items.tail) := by
        split
        · exact pairing.same _
        · exact onward world (pairing.refl world)
      cases items with
      | nil => exact absent
      | cons item items =>
          cases item with
          | undefined => exact absent
          | _ => exact checkThen_paired pairing parts here _ _ onward

theorem checkTuple_paired (parts : PartsPaired pairing check checkOther) (optionalStart : Option Nat)
    (related : List.Forall₂ (pairing.ids world) ids others) :
    pairing.Same world (checkTuple check ids optionalStart value)
      (checkTuple checkOther others optionalStart value) := by
  cases value with
  | array items =>
      simp only [checkTuple, related.length_eq]
      split
      · exact pairing.same _
      · exact checkPlaces_paired pairing parts _ 0 items related
  | _ => exact pairing.same _

theorem checkProperties_paired (parts : PartsPaired pairing check checkOther)
    {properties otherProperties : List Property}
    (related : List.Forall₂ (Property.Related (pairing.ids world)) properties otherProperties)
    (rest : ∀ later, pairing.Extends world later → pairing.Same later next nextOther) :
    pairing.Same world (checkProperties check options object next properties)
      (checkProperties checkOther options object nextOther otherProperties) := by
  induction properties generalizing world otherProperties with
  | nil =>
      cases related
      exact rest world (pairing.refl world)
  | cons property properties ih =>
      obtain ⟨otherProperty, others, here, others_related, rfl⟩ :=
        List.forall₂_cons_left_iff.mp related
      have onward (later : pairing.World) (grown : pairing.Extends world later) :=
        ih (others_related.imp fun _ _ => Property.Related.imp (pairing.widen grown))
          fun last grown' => rest last (pairing.trans grown grown')
      simp only [checkProperties, presentValue_eq here]
      cases presentValue options object otherProperty with
      | some present =>
          rw [here.name]
          exact checkThen_paired pairing parts here.type _ present onward
      | none =>
          simp only [here.optional, here.name]
          split
          · exact onward world (pairing.refl world)
          · exact pairing.same _

theorem checkEntries_paired (parts : PartsPaired pairing check checkOther) (isDeclared : String → Bool)
    (entries : List (String × Value)) (related : pairing.ids world id other) :
    pairing.Same world (checkEntries check isDeclared id entries)
      (checkEntries checkOther isDeclared other entries) := by
  induction entries generalizing world with
  | nil => exact pairing.same _
  | cons entry rest ih =>
      simp only [checkEntries]
      split
      · exact ih related
      · exact checkThen_paired pairing parts related _ _ fun later grown =>
          ih (pairing.widen grown _ _ related)

theorem checkRemaining_paired (parts : PartsPaired pairing check checkOther)
    (foreign : Option ForeignFields) (related : Shape.Related (pairing.ids world) shape otherShape) :
    pairing.Same world (checkRemaining check object shape foreign)
      (checkRemaining checkOther object otherShape foreign) := by
  have declares : shape.declares = otherShape.declares := funext related.declares_eq
  simp only [checkRemaining, declares]
  rcases Shape.rel_cases related.index with ⟨unsigned, unsigned'⟩ | ⟨_, _, signed, signed', here⟩
  · rw [unsigned, unsigned']
    exact pairing.same _
  · rw [signed, signed']
    exact checkEntries_paired pairing parts _ _ here.type

theorem checkShape_paired (parts : PartsPaired pairing check checkOther)
    (foreign : Option ForeignFields) (related : Shape.Related (pairing.ids world) shape otherShape) :
    pairing.Same world (checkShape check options object shape foreign)
      (checkShape checkOther options object otherShape foreign) := by
  simp only [checkShape, checkNumberKeys, related.keyType_eq]
  split
  · exact checkProperties_paired pairing parts related.properties fun later grown =>
      checkRemaining_paired pairing parts foreign (related.imp (pairing.widen grown))
  · exact pairing.same _

section

variable (resolves : pairing.Resolves options.maxDepth)

include resolves

theorem checkInterfaceLike_paired (parts : PartsPaired pairing check checkOther)
    (unions : MembersPaired pairing checkMember checkMemberOther) (foreign : Option ForeignFields)
    (related : pairing.ids world id other) :
    pairing.Same world (checkInterfaceLike options check value foreign checkMember id)
      (checkInterfaceLike options checkOther value foreign checkMemberOther other) := by
  refine pairing.bind (resolves.distribute related) ?_
  rintro answer otherAnswer middle grown answers
  cases answers with
  | some pair => exact unions pair
  | none =>
      refine pairing.bind (resolves.flatten (pairing.widen grown _ _ related)) ?_
      rintro shape otherShape last grown' shapes
      cases value with
      | object object => exact checkShape_paired pairing parts foreign shapes
      | _ => exact pairing.same _

theorem checkWithin_paired (parts : PartsPaired pairing check checkOther)
    (checks : MembersPaired pairing (checkWithin options check value steps)
      (checkWithin options checkOther value steps))
    (members : ∀ foreign, MembersPaired pairing (checkMemberWithin options check value steps foreign)
      (checkMemberWithin options checkOther value steps foreign)) :
    MembersPaired pairing (checkWithin options check value (steps + 1))
      (checkWithin options checkOther value (steps + 1)) := by
  intro world id other related
  simp only [checkWithin]
  refine pairing.bind (pairing.node related) ?_
  rintro node otherNode _ - ⟨rfl, same⟩
  have follows : pairing.Same world
      (do let target ← Resolver.resolve options.maxDepth id
          checkWithin options check value steps target)
      (do let target ← Resolver.resolve options.maxDepth other
          checkWithin options checkOther value steps target) :=
    pairing.bind (resolves.resolve related) fun _ _ middle _ pair => checks pair
  cases same with
  | plain plain =>
      cases node <;> first | exact plain.elim | exact pairing.same _ | exact follows
  | array elements => exact checkArray_paired pairing parts elements
  | tuple elements optionalStart => exact checkTuple_paired pairing parts optionalStart elements
  | indexedAccess _ _ => exact follows
  | union listed =>
      refine pairing.bind (resolves.foreignFields related) ?_
      rintro foreign _ middle grown rfl
      exact checkAny_paired pairing (members foreign) [] (listed.imp (pairing.widen grown))
  | intersection listed =>
      refine pairing.bind (resolves.foreignFields related) ?_
      rintro foreign _ middle grown rfl
      exact checkAll_paired pairing (members foreign) 0 (listed.imp (pairing.widen grown))
  | interface _ _ _ => exact checkInterfaceLike_paired pairing resolves parts checks none related
  | mapped _ _ => exact checkInterfaceLike_paired pairing resolves parts checks none related

theorem checkMemberWithin_paired (parts : PartsPaired pairing check checkOther) (foreign : ForeignFields)
    (checks : MembersPaired pairing (checkWithin options check value steps)
      (checkWithin options checkOther value steps))
    (members : MembersPaired pairing (checkMemberWithin options check value steps foreign)
      (checkMemberWithin options checkOther value steps foreign)) :
    MembersPaired pairing (checkMemberWithin options check value (steps + 1) foreign)
      (checkMemberWithin options checkOther value (steps + 1) foreign) := by
  intro world id other related
  simp only [checkMemberWithin]
  refine pairing.bind (resolves.resolve related) fun resolved otherResolved middle _ pair => ?_
  refine pairing.bind (pairing.node pair) ?_
  rintro node otherNode _ - ⟨rfl, same⟩
  cases same with
  | plain plain => cases node <;> first | exact plain.elim | exact checks pair
  | union listed => exact checkAny_paired pairing members [] listed
  | intersection listed => exact checkAll_paired pairing members 0 listed
  | interface _ _ _ => exact checkInterfaceLike_paired pairing resolves parts members _ pair
  | mapped _ _ => exact checkInterfaceLike_paired pairing resolves parts members _ pair
  | _ => exact checks pair

theorem within_paired (parts : PartsPaired pairing check checkOther) (steps : Nat) :
    MembersPaired pairing (checkWithin options check value steps)
        (checkWithin options checkOther value steps) ∧
      ∀ foreign, MembersPaired pairing (checkMemberWithin options check value steps foreign)
        (checkMemberWithin options checkOther value steps foreign) := by
  induction steps with
  | zero => exact ⟨fun _ => pairing.fail _, fun _ _ _ _ _ => pairing.fail _⟩
  | succ steps ih =>
      exact ⟨checkWithin_paired pairing resolves parts ih.1 ih.2, fun foreign =>
        checkMemberWithin_paired pairing resolves parts foreign ih.1 (ih.2 foreign)⟩

theorem checkLevels_paired (levels : Nat) :
    PartsPaired pairing (checkLevels options levels) (checkLevels options levels) := by
  induction levels with
  | zero => exact fun _ _ => pairing.fail _
  | succ levels ih => exact fun related value => (within_paired pairing resolves ih _).1 related

/-- Related schemas are checked with the same outcome. -/
theorem check_paired : PartsPaired pairing (Validator.check options) (Validator.check options) :=
  fun related value => checkLevels_paired pairing resolves (value.height + 1) related value

end

end Validator

end Conform
