import Conform.Proofs.Agreement.Identity
import Conform.Proofs.Regular.Resolving
import Conform.Proofs.Validator.Congruence
import Conform.Proofs.Validator.Transparency

/-! In a regular arena every check has an outcome.  The steps that stay on a value go along a
trail, two at most for each of its nodes; the parts of the value are checked with all steps
again, so its height does not matter. -/

namespace Conform

open Relation Resolver Run Validator

namespace Arena

variable {arena : Arena} {options : Options} {value : Value} {checkPart : Value → SchemaId → Run Outcome}
  {id : SchemaId}

section

variable (regular : arena.Regular) (closed : arena.Closed) (enough : 2 * arena.size + 2 ≤ options.maxDepth)
  (parts : ∀ part ∈ value.parts, ∀ id, id.index < arena.size →
    arena.Manages (checkPart part id) fun _ => True)

include parts in
theorem parts_manage {types : List SchemaId} (issued : ∀ type ∈ types, type.index < arena.size) :
    RelatedParts (success (Undisturbed arena)) value.parts types checkPart checkPart :=
  fun part listed type inside => parts part listed type (issued type inside)

include regular closed enough parts

theorem checkInterfaceLike_manages (foreign : Option ForeignFields) (checkUnion : SchemaId → Run Outcome)
    (interface : arena.isInterface id = true) :
    arena.Manages (checkInterfaceLike options checkPart value foreign checkUnion id) fun _ => True := by
  have left : 0 < options.maxDepth := by omega
  refine (distributeWithin_manages options.maxDepth left interface).bind ?_
  rintro _ rfl
  have flattens := flattenWithin_manages regular closed options.maxDepth options.maxDepth interface .nil
    (by rw [List.length_nil]; omega)
  refine flattens.bind fun shape issued => ?_
  cases value with
  | object object => exact checkShape_related _ (parts_manage parts issued)
  | _ => exact .pure trivial

/-- Every node of the trail takes a step, and a second one where the check of a member goes on
to the node that the member resolves to. -/
theorem within_manages (steps : Nat) {visited : List SchemaId} (present : id.index < arena.size)
    (trail : Trail arena.SameValue arena.size visited id) :
    (2 * arena.size + 1 ≤ 2 * visited.length + steps →
        arena.Manages (checkWithin options checkPart value steps id) fun _ => True) ∧
      ∀ foreign, 2 * arena.size + 2 ≤ 2 * visited.length + steps →
        arena.Manages (checkMemberWithin options checkPart value steps foreign id) fun _ => True := by
  have short := trail.short regular.apart present
  induction steps generalizing visited id with
  | zero => exact ⟨fun room => by omega, fun _ room => by omega⟩
  | succ steps ih =>
      have left : 0 < options.maxDepth := by omega
      have resolves := resolveWithin_manages regular closed options.maxDepth left present
      have shapes (foreign : Option ForeignFields) (checkUnion : SchemaId → Run Outcome) {id : SchemaId}
          {properties : List Property} {index : Option IndexSignature} {parents : List SchemaId}
          (found : arena.get? id = some (.interface properties index parents)) :=
        checkInterfaceLike_manages regular closed enough parts foreign checkUnion
          (isInterface_iff.mpr ⟨properties, index, parents, found⟩)
      -- a member of a union or intersection at the end of the trail
      have inside {id : SchemaId} (trail : Trail arena.SameValue arena.size visited id)
          {members : List SchemaId} (found : arena.get? id = some (.union members) ∨
            arena.get? id = some (.intersection members))
          (room : 2 * arena.size + 1 ≤ 2 * visited.length + (steps + 1)) (foreign : ForeignFields) :
          ∀ member ∈ members, arena.Manages
            (checkMemberWithin options checkPart value steps foreign member) fun _ => True := by
        intro member listed
        have issued := closed.members found member listed
        have onward := regular.trail_member trail found listed
        refine (ih issued onward (onward.short regular.apart issued)).2 foreign ?_
        rw [List.length_cons]
        omega
      refine ⟨fun room => ?_, fun foreign room => resolves.bind fun resolved denotes => ?_⟩
      · obtain ⟨node, found⟩ := arena.exists_get? id present
        have gathers := foreignFields_manages regular closed options.maxDepth present enough
        refine manages_node found ?_
        cases node with
        | array element =>
            exact checkArray_related _ (parts_manage parts (closed.children id _ found))
        | tuple elements optionalStart =>
            exact checkTuple_related _ optionalStart (parts_manage parts (closed.children id _ found))
        | reference target =>
            refine resolves.bind fun resolved denotes => ?_
            obtain ⟨next, refers, onward⟩ := denotes.leads_on found
            have trail := (trail.push regular.apart present (arena.refers_le_sameValue _ _ refers)).refers onward
            have issued := closed.denotes (closed.refers refers) onward
            refine (ih issued trail (trail.short regular.apart issued)).1 ?_
            rw [List.length_cons]
            omega
        | indexedAccess object index => cases regular.plain id _ found
        | union members =>
            exact gathers.bind fun foreign _ => checkAny_self (success _) [] (inside trail (.inl found) room foreign)
        | intersection members =>
            exact gathers.bind fun foreign _ => checkAll_self (success _) 0 (inside trail (.inr found) room foreign)
        | interface _ _ _ => exact shapes none _ found
        | mapped combinator target => cases regular.plain id _ found
        | _ => exact .pure trivial
      · obtain ⟨leads, node, found, concrete⟩ := denotes
        have trail := trail.refers leads
        have own := (ih (index_lt_size found) trail short).1 (by omega)
        have room' : 2 * arena.size + 1 ≤ 2 * visited.length + (steps + 1) := by omega
        refine manages_node found ?_
        cases node with
        | union members => exact checkAny_self (success _) [] (inside trail (.inl found) room' foreign)
        | intersection members => exact checkAll_self (success _) 0 (inside trail (.inr found) room' foreign)
        | interface _ _ _ => exact shapes (some foreign) _ found
        | mapped combinator target => cases regular.plain resolved _ found
        | _ => exact own

omit parts

/-- The levels of a value each have all steps. -/
theorem checkLevels_manages (levels : Nat) {value : Value} (high : value.height < levels)
    (present : id.index < arena.size) :
    arena.Manages (checkLevels options levels value id) fun _ => True := by
  induction levels generalizing value id with
  | zero => exact (Nat.not_lt_zero _ high).elim
  | succ levels ih =>
      have parts : ∀ part ∈ value.parts, ∀ id, id.index < arena.size →
          arena.Manages (checkLevels options levels part id) fun _ => True := by
        intro part listed id present
        have lower := Value.height_part listed
        exact ih (by omega) present
      refine (within_manages regular closed enough parts options.maxDepth present .nil).1 ?_
      rw [List.length_nil]
      omega

end

theorem ofRegistry_closed (registry : Registry) : (ofRegistry registry).Closed where
  children := fun _ _ found _ listed =>
    children_issued (ResolverState.ofRegistry_sound registry) found _ listed
  symbols := (ResolverState.ofRegistry_sound registry).symbols

end Arena

namespace Validator

variable {registry : Registry} {options : Options} {validator : Validator}

/-- With a limit that grows with the number of nodes every check against a symbol of a regular
registry has an outcome, for values of any height and after any calls. -/
theorem regular_registry_raises_no_error (regular : (Arena.ofRegistry registry).Regular)
    (enough : 4 * coreSize registry + 8 ≤ options.maxDepth)
    (reachable : Reachable registry options validator) {path symbol : String} {schema : Schema}
    (defined : registry.get? path symbol = some schema) (value : Value) :
    ∃ outcome, (validator.validate value path symbol).1 = .ok outcome := by
  obtain ⟨id, named⟩ := Arena.exists_symbol? defined
  have closed := Arena.ofRegistry_closed registry
  have present := closed.symbols path symbol id named
  have room : 2 * (Arena.ofRegistry registry).size + 2 ≤ options.maxDepth := by
    rw [coreSize] at enough
    omega
  have checks := Arena.checkLevels_manages regular closed room (value.height + 1) (Nat.lt_succ_self _) present
  obtain ⟨outcome, after, checked, -⟩ := checks _ (.ofArena _)
  have advances := reachable.advances
  have found := lookup_defined
    ((Arena.symbol?_mono (ResolverState.arena_le advances.grown) path symbol).trans named)
  have first : (check options value id (.ofArena (.ofRegistry registry))).1 = .ok outcome :=
    congrArg Prod.fst checked
  have agrees : IsLimited (check options value id (.ofArena (.ofRegistry registry))).1 ∨
      (check options value id (.ofArena (.ofRegistry registry))).1 = (check options value id validator.state).1 :=
    Agreement.check_outcome (ResolverState.ofRegistry_sound registry) advances.sound advances.grown present
  have same : (check options value id validator.state).1 = .ok outcome := by
    rcases agrees with ⟨limit, limited⟩ | same
    · cases first.symm.trans limited
    · exact same.symm.trans first
  refine ⟨outcome, ?_⟩
  rw [validate, perform, bind_ok found, reachable.options_eq]
  exact same

/-- Items that lead to the next item and are tagged by choices, which lead to items again. -/
def tagged : Registry :=
  ((Registry.empty.insert "m" "Base" (.interface [⟨0, "id", false, .string⟩] none [])).insert "m" "Item"
    (.interface [⟨0, "next", true, .reference "m/Item"⟩, ⟨1, "tags", false, .array (.reference "m/Choice")⟩]
      none (Branch.numbered [.reference "m/Base"]))).insert "m" "Choice"
    (.union (Branch.numbered [.reference "m/Item",
      .intersection (Branch.numbered [.reference "m/Base", .reference "m/Base"]), .string]))

theorem tagged_regular : (Arena.ofRegistry tagged).Regular :=
  Arena.regular_of_ranks (fun id => [0, 0, 0, 0, 1, 1, 1, 2, 0, 3, 1, 4, 0, 1, 0].getD id.index 0)
    (fun id => if id.index = 14 then 1 else 0) (by decide +kernel)

def taggedItem : Value :=
  .object (.ofList [("id", .string "a"),
    ("next", .object (.ofList [("id", .string "b"), ("tags", .array [])])),
    ("tags", .array [.string "x", .object (.ofList [("id", .string "c")])])])

/-- The second check, after a first one has filled the memos. -/
theorem regular_registry_raises_no_error_tagged :
    (Arena.ofRegistry tagged).Regular ∧ 4 * coreSize tagged + 8 ≤ 68 ∧
      ∃ outcome, (((Validator.ofRegistry tagged { maxDepth := 68 }).validate .null "m" "Choice").2.validate
        taggedItem "m" "Item").1 = .ok outcome := by
  have enough : 4 * coreSize tagged + 8 ≤ 68 := by decide +kernel
  have reachable : Reachable tagged { maxDepth := 68 }
      ((Validator.ofRegistry tagged { maxDepth := 68 }).validate .null "m" "Choice").2 :=
    .single (.validate _ .null "m" "Choice")
  have defined : ∃ schema, tagged.get? "m" "Item" = some schema :=
    Option.isSome_iff_exists.mp (by decide +kernel)
  obtain ⟨schema, defined⟩ := defined
  exact ⟨tagged_regular, enough,
    regular_registry_raises_no_error tagged_regular enough reachable defined taggedItem⟩

end Validator

end Conform
