import Conform.Proofs.Resolver.Stable
import Conform.Proofs.Validator.Congruence

/-! Checks are stable: an outcome that has been found is found again, whatever
has been added to the state since. -/

namespace Conform.Validator

open Run Resolver

variable {core : Nat} {options : Options} {value : Value} {object : Object}
  {checkPart : Value → SchemaId → Run Outcome} {checkMember : SchemaId → Run Outcome}
  {next : Run Outcome}

/-- Whatever is put together from stable runs is stable. -/
def stability (core : Nat) : Congruence where
  Related run _ := Stable core run
  pure := .pure
  bind part rest := part.bind rest

theorem stability_operates (core limit : Nat) : Operates (stability core) limit limit where
  node := .node
  resolve := resolve_stable limit
  distribute := distributeWithin_stable limit limit
  flatten := flatten_stable limit
  foreignFields := foreignFields_stable limit

theorem checkAny_stable (members : ∀ id, Stable core (checkMember id)) (failures : List Failure)
    (ids : List SchemaId) : Stable core (checkAny checkMember failures ids) :=
  checkAny_self (stability core) failures fun id _ => members id

theorem checkAll_stable (members : ∀ id, Stable core (checkMember id)) (position : Nat)
    (ids : List SchemaId) : Stable core (checkAll checkMember position ids) :=
  checkAll_self (stability core) position fun id _ => members id

section

variable (parts : ∀ part id, Stable core (checkPart part id))

include parts

theorem parts_stable (values : List Value) (types : List SchemaId) :
    RelatedParts (stability core) values types checkPart checkPart :=
  fun part _ id _ => parts part id

theorem checkItems_stable (element : SchemaId) (position : Nat) (items : List Value) :
    Stable core (checkItems checkPart element position items) :=
  checkItems_related (stability core) position (parts_stable parts _ _)

theorem checkPlaces_stable (required position : Nat) (elements : List SchemaId) (items : List Value) :
    Stable core (checkPlaces checkPart required position elements items) :=
  checkPlaces_related (stability core) required position (parts_stable parts _ _)

theorem checkProperties_stable (rest : Stable core next) (properties : List Property) :
    Stable core (checkProperties checkPart options object next properties) :=
  checkProperties_self (stability core) rest (parts_stable parts _ _)

theorem checkEntries_stable (isDeclared : String → Bool) (type : SchemaId)
    (entries : List (String × Value)) : Stable core (checkEntries checkPart isDeclared type entries) :=
  checkEntries_related (stability core) isDeclared (parts_stable parts _ _)

theorem checkRemaining_stable (shape : Shape) (foreign : Option ForeignFields) :
    Stable core (checkRemaining checkPart object shape foreign) :=
  checkRemaining_related (stability core) (parts_stable parts _ _)

theorem checkShape_stable (shape : Shape) (foreign : Option ForeignFields) :
    Stable core (checkShape checkPart options object shape foreign) :=
  checkShape_related (stability core) (parts_stable parts _ _)

theorem checkInterfaceLike_stable (foreign : Option ForeignFields)
    (unions : ∀ id, Stable core (checkMember id)) (id : SchemaId) :
    Stable core (checkInterfaceLike options checkPart value foreign checkMember id) :=
  checkInterfaceLike_self (stability_operates core _) parts foreign unions id

theorem within_stable (steps : Nat) :
    (∀ id, Stable core (checkWithin options checkPart value steps id)) ∧
      ∀ foreign id, Stable core (checkMemberWithin options checkPart value steps foreign id) :=
  checkWithin_self (stability_operates core _) (.fail _) parts steps

theorem checkWithin_stable (steps : Nat) (id : SchemaId) :
    Stable core (checkWithin options checkPart value steps id) :=
  (within_stable parts steps).1 id

theorem checkMemberWithin_stable (steps : Nat) (foreign : ForeignFields) (id : SchemaId) :
    Stable core (checkMemberWithin options checkPart value steps foreign id) :=
  (within_stable parts steps).2 foreign id

end

theorem checkLevels_stable (levels : Nat) (value : Value) (id : SchemaId) :
    Stable core (checkLevels options levels value id) :=
  checkLevels_self (stability_operates core _) (.fail _) levels value id

theorem check_stable (options : Options) (value : Value) (id : SchemaId) :
    Stable core (check options value id) :=
  checkLevels_stable _ value id

end Conform.Validator
