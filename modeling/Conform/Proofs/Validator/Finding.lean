import Conform.Proofs.Resolver.Finding
import Conform.Proofs.Validator.Congruence
import Conform.Proofs.Validator.Stable

/-! A check against an issued identity never stops at an unknown one: it goes on to what
the node mentions, to what that resolves to, and to the types of a shape. -/

namespace Conform.Validator

open Run Resolver

variable {core : Nat} {options : Options} {value : Value} {given : List SchemaId}
  {checkPart : Value → SchemaId → Run Outcome} {checkMember : SchemaId → Run Outcome}

/-- Runs that go on from the given identities and whose answers mention none. -/
def locating (core : Nat) (given : List SchemaId) : Congruence where
  Related run _ := Locates core given run fun _ => []
  pure answer := .of_stable .pure (.pure answer)
  bind part rest := part.bind rest

section

variable (parts : ∀ part id, Locates core [id] (checkPart part id) fun _ => [])

include parts

theorem parts_locate {types : List SchemaId} (listed : types ⊆ given) :
    RelatedParts (locating core given) value.parts types checkPart checkPart :=
  fun part _ id inside => (parts part id).of_mem (listed inside)

theorem checkInterfaceLike_finds (foreign : Option ForeignFields)
    (unions : ∀ id, Finds core [id] (checkMember id)) (id : SchemaId) :
    Finds core [id] (checkInterfaceLike options checkPart value foreign checkMember id) := by
  refine .bind (distributeWithin_locates _ _ id) fun answer => ?_
  cases answer with
  | some union => exact (unions union).subset (List.subset_append_left ..)
  | none =>
      refine .bind ((flattenWithin_locates _ _ [] id).of_mem (by simp)) fun shape => ?_
      cases value with
      | object object =>
          exact (checkShape_related (locating core _) (parts_locate parts (List.subset_append_left ..))).finds
      | _ => exact .pure

end

theorem within_finds (parts : ∀ part id, Finds core [id] (checkPart part id))
    (stable : ∀ part id, Stable core (checkPart part id)) (steps : Nat) :
    (∀ id, Finds core [id] (checkWithin options checkPart value steps id)) ∧
      ∀ foreign id, Finds core [id] (checkMemberWithin options checkPart value steps foreign id) := by
  have located (part : Value) (id : SchemaId) : Locates core [id] (checkPart part id) fun _ => [] :=
    .of_stable (parts part id) (stable part id)
  induction steps with
  | zero => exact ⟨fun _ => .fail nofun, fun _ _ => .fail nofun⟩
  | succ steps ih =>
      have members (foreign : ForeignFields) (id : SchemaId) : Locates core [id]
          (checkMemberWithin options checkPart value steps foreign id) fun _ => [] :=
        .of_stable (ih.2 foreign id) ((within_stable stable steps).2 foreign id)
      have anyOf (foreign : ForeignFields) (ids : List SchemaId) :
          Finds core ids (checkAny (checkMemberWithin options checkPart value steps foreign) [] ids) :=
        (checkAny_self (locating core ids) [] fun id listed => (members foreign id).of_mem listed).finds
      have allOf (foreign : ForeignFields) (ids : List SchemaId) :
          Finds core ids (checkAll (checkMemberWithin options checkPart value steps foreign) 0 ids) :=
        (checkAll_self (locating core ids) 0 fun id listed => (members foreign id).of_mem listed).finds
      have gathers (id : SchemaId) : Locates core [id]
          (foreignFields options.maxDepth id) fun _ => [] :=
        .of_stable (foreignFields_finds _ id) (foreignFields_stable _ id)
      refine ⟨fun id => .bind (.node (List.mem_singleton_self _)) fun node => ?_, fun foreign id =>
        .bind (resolveWithin_locates _ _ id) fun resolved =>
          .bind (.node (List.mem_cons_self ..)) fun node => ?_⟩
      · cases node with
        | array element =>
            exact (checkArray_related (locating core _) (parts_locate located (by simp [Node.children]))).finds
        | tuple elements optionalStart =>
            exact (checkTuple_related (locating core _) optionalStart
              (parts_locate located (List.subset_append_left ..))).finds
        | reference _ | indexedAccess _ _ =>
            exact .bind ((resolveWithin_locates _ _ id).of_mem (by simp)) fun target =>
              (ih.1 target).subset (List.subset_append_left ..)
        | union listed =>
            exact .bind ((gathers id).of_mem (by simp)) fun foreign =>
              (anyOf foreign listed).subset (List.subset_append_left ..)
        | intersection listed =>
            exact .bind ((gathers id).of_mem (by simp)) fun foreign =>
              (allOf foreign listed).subset (List.subset_append_left ..)
        | interface _ _ _ | mapped _ _ =>
            exact (checkInterfaceLike_finds located none ih.1 id).subset (by simp)
        | _ => exact .pure
      · cases node with
        | union listed =>
            exact (anyOf foreign listed).subset (List.subset_append_left ..)
        | intersection listed =>
            exact (allOf foreign listed).subset (List.subset_append_left ..)
        | interface _ _ _ | mapped _ _ =>
            exact (checkInterfaceLike_finds located _ (ih.2 foreign) resolved).subset (by simp)
        | _ => exact (ih.1 resolved).subset (by simp)

theorem checkLevels_finds (levels : Nat) (value : Value) (id : SchemaId) :
    Finds core [id] (checkLevels options levels value id) := by
  induction levels generalizing value id with
  | zero => exact .fail nofun
  | succ levels ih => exact (within_finds ih (checkLevels_stable levels) _).1 id

theorem check_finds (options : Options) (value : Value) (id : SchemaId) :
    Finds core [id] (check options value id) :=
  checkLevels_finds _ value id

end Conform.Validator
