import Conform.Proofs.Budget.Resolving
import Conform.Proofs.Validator.Congruence

/-! A check never runs out of its budget.  A step that stays on the value uses up a step, and a
step into a part starts again on a value of less height, so the checks nest at most as deep as
the product of both bounds. -/

namespace Conform

open Resolver Run

namespace Arena

/-- The references and indexed accesses. -/
def links (arena : Arena) : List SchemaId :=
  ((List.range arena.size).map SchemaId.mk).filter fun id => (arena.get? id).any (·.isLink)

theorem charted_links (arena : Arena) : arena.Charted arena.links where
  listed := fun id node found link => by
    refine List.mem_filter.mpr ⟨List.mem_map.mpr ⟨id.index, ?_, rfl⟩, ?_⟩
    · exact List.mem_range.mpr (index_lt_size found)
    · rw [found]
      exact Node.isLink_of_not_concrete link
  few := by
    calc arena.links.length
        ≤ ((List.range arena.size).map SchemaId.mk).length := List.length_filter_le ..
      _ = arena.size := by rw [List.length_map, List.length_range]

end Arena

namespace Budget

variable {budget : Budget} {links : List SchemaId} {limit : Nat}

theorem walk_suffices {resolve resolve' : SchemaId → Run SchemaId}
    (resolves : ∀ id, Suffices links (resolve id) (resolve' id)) (length : Nat) {turns : Nat}
    (enough : length < turns) (chain : CombinatorChain) (target : SchemaId) :
    Suffices links (budget.walk limit resolve turns length chain target)
      (walkChain limit resolve' length chain target) := by
  induction length generalizing turns chain target with
  | zero =>
      obtain ⟨turns, rfl⟩ := Nat.exists_eq_add_one.mpr enough
      exact .fail _
  | succ length ih =>
      obtain ⟨turns, rfl⟩ := Nat.exists_eq_add_one.mpr (Nat.zero_lt_of_lt enough)
      refine .bind (resolves target) fun resolved => .bind (.node resolved) fun node => ?_
      cases node with
      | union _ | interface _ _ _ => exact .pure _
      | mapped combinator inner => exact ih (Nat.lt_of_succ_lt_succ enough) _ inner
      | _ => exact .fail _

section

variable (turning : links.length < budget.turns)

include turning

theorem distributeIn_suffices (walking : limit < budget.links) {calls steps : Nat} (deep : steps < calls)
    (id : SchemaId) :
    Suffices links (budget.distributeIn limit calls steps id) (distributeWithin limit steps id) := by
  obtain ⟨calls, rfl⟩ := Nat.exists_eq_add_one.mpr (Nat.zero_lt_of_lt deep)
  refine .bind (.read _) fun known => ?_
  cases known with
  | some union => exact .pure _
  | none =>
      cases steps with
      | zero => exact .fail _
      | succ steps =>
          have resolves := (within_suffices limit turning steps
            (Nat.lt_of_succ_lt_succ deep)).1
          refine .bind (.node id) fun node => ?_
          cases node with
          | mapped combinator target =>
              refine .bind (walk_suffices resolves limit walking _ target) fun walked => ?_
              cases walked with
              | none => exact .pure none
              | some walked =>
                  exact distributeTail_related suffices_steps id walked.1.toList walked.2
          | _ => exact .pure none

theorem collectIn_suffices (walking : limit < budget.links) {calls steps : Nat} (deep : steps < calls)
    (collected : Collected) (ids : List SchemaId) :
    Suffices links (budget.collectIn limit calls steps collected ids)
      (collectWithin limit steps collected ids) := by
  induction steps generalizing calls collected ids with
  | zero =>
      obtain ⟨calls, rfl⟩ := Nat.exists_eq_add_one.mpr deep
      exact .fail _
  | succ steps ih =>
      obtain ⟨calls, rfl⟩ := Nat.exists_eq_add_one.mpr (Nat.zero_lt_of_lt deep)
      have deeper := Nat.lt_of_succ_lt_succ deep
      obtain ⟨resolves, flattens⟩ := within_suffices limit turning steps deeper
      refine (coincidence _).foldlM (fun collected id _ => .bind (resolves id) fun resolved => ?_) _
      split
      · exact .pure collected
      · refine .bind (.node resolved) fun node => ?_
        cases node with
        | union members | intersection members => exact ih deeper _ members
        | interface _ _ _ | mapped _ _ =>
            refine .bind (distributeIn_suffices turning walking deeper resolved) fun union => ?_
            cases union with
            | some union => exact ih deeper _ [union]
            | none => exact .bind (flattens [] resolved) fun _ => .pure _
        | _ => exact .pure _

theorem foreignFields_suffices (walking : limit < budget.links) (calling : limit < budget.calls)
    (id : SchemaId) :
    Suffices links (budget.foreignFields limit id) (Resolver.foreignFields limit id) := by
  refine .bind (.read _) fun known => ?_
  cases known with
  | some fields => exact .pure fields
  | none =>
      exact .bind (collectIn_suffices turning walking calling .empty [id]) fun collected =>
        suffices_of_same_arena fun _ => rfl

open Validator

variable {options : Options} {value : Value}

theorem checkInterfaceLike_suffices (walking : options.maxDepth < budget.links)
    (calling : options.maxDepth < budget.calls) {checkPart checkPart' : Value → SchemaId → Run Outcome}
    {checkUnion checkUnion' : SchemaId → Run Outcome} (foreign : Option ForeignFields)
    (parts : ∀ part ∈ value.parts, ∀ id, Suffices links (checkPart part id) (checkPart' part id))
    (unions : ∀ id, Suffices links (checkUnion id) (checkUnion' id)) (id : SchemaId) :
    Suffices links (budget.checkInterfaceLike options checkPart value foreign checkUnion id)
      (Validator.checkInterfaceLike options checkPart' value foreign checkUnion' id) := by
  refine .bind (distributeIn_suffices turning walking calling id) fun union => ?_
  cases union with
  | some union => exact unions union
  | none =>
      refine .bind ((within_suffices _ turning _ calling).2 [] id) fun shape => ?_
      cases value with
      | object object =>
          exact checkShape_related (coincidence _) fun part listed type _ => parts part listed type
      | _ => exact .pure _

/-- With the checks of the parts, `room` of them nested at most, as many more nested checks
suffice as there are steps, and one for the check that has no step left. -/
theorem checkIn_suffices (walking : options.maxDepth < budget.links)
    (calling : options.maxDepth < budget.calls) {room : Nat} {checkPart : Value → SchemaId → Run Outcome}
    (parts : ∀ nesting, room ≤ nesting → ∀ part ∈ value.parts, ∀ id,
      Suffices links (budget.checkIn options nesting options.maxDepth part id) (checkPart part id))
    (steps : Nat) {nesting : Nat} (enough : steps + room < nesting) :
    (∀ id, Suffices links (budget.checkIn options nesting steps value id)
        (checkWithin options checkPart value steps id)) ∧
      ∀ foreign id, Suffices links (budget.checkMemberIn options nesting steps value foreign id)
        (checkMemberWithin options checkPart value steps foreign id) := by
  induction steps generalizing nesting with
  | zero =>
      obtain ⟨nesting, rfl⟩ := Nat.exists_eq_add_one.mpr (Nat.zero_lt_of_lt enough)
      exact ⟨fun _ => .fail _, fun _ _ => .fail _⟩
  | succ steps ih =>
      obtain ⟨nesting, rfl⟩ := Nat.exists_eq_add_one.mpr (Nat.zero_lt_of_lt enough)
      have fewer : steps + room < nesting := by omega
      obtain ⟨own, asMember⟩ := ih fewer
      have parts := parts nesting (by omega)
      have related (types : List SchemaId) : RelatedParts (coincidence (·.arena.Charted links))
          value.parts types (budget.checkIn options nesting options.maxDepth) checkPart :=
        fun part listed type _ => parts part listed type
      have resolves := (within_suffices options.maxDepth turning _ calling).1
      have gathers := foreignFields_suffices turning walking calling
      refine ⟨fun id => .bind (.node id) fun node => ?_, fun foreign id =>
        .bind (resolves id) fun resolved => .bind (.node resolved) fun node => ?_⟩
      · cases node with
        | array element => exact checkArray_related _ (related [element])
        | tuple elements optionalStart => exact checkTuple_related _ optionalStart (related elements)
        | reference _ | indexedAccess _ _ => exact .bind (resolves id) own
        | union members =>
            exact .bind (gathers id) fun foreign =>
              checkAny_related (coincidence _) [] fun id _ => asMember foreign id
        | intersection members =>
            exact .bind (gathers id) fun foreign =>
              checkAll_related (coincidence _) 0 fun id _ => asMember foreign id
        | interface _ _ _ | mapped _ _ =>
            exact checkInterfaceLike_suffices turning walking calling none parts own id
        | _ => exact .pure _
      · cases node with
        | union members =>
            exact checkAny_related (coincidence _) [] fun id _ => asMember foreign id
        | intersection members =>
            exact checkAll_related (coincidence _) 0 fun id _ => asMember foreign id
        | interface _ _ _ | mapped _ _ =>
            exact checkInterfaceLike_suffices turning walking calling (some foreign) parts
              (asMember foreign) resolved
        | _ => exact own resolved

theorem checkLevels_suffices (walking : options.maxDepth < budget.links)
    (calling : options.maxDepth < budget.calls) (levels : Nat) {nesting : Nat} {value : Value}
    (high : value.height < levels) (enough : levels * (options.maxDepth + 1) ≤ nesting) (id : SchemaId) :
    Suffices links (budget.checkIn options nesting options.maxDepth value id)
      (checkLevels options levels value id) := by
  induction levels generalizing nesting value id with
  | zero => exact (Nat.not_lt_zero _ high).elim
  | succ levels ih =>
      rw [Nat.succ_mul] at enough
      have parts (nesting : Nat) (room : levels * (options.maxDepth + 1) ≤ nesting) (part : Value)
          (listed : part ∈ value.parts) (id : SchemaId) :
          Suffices links (budget.checkIn options nesting options.maxDepth part id)
            (checkLevels options levels part id) := by
        have lower := Value.height_part listed
        exact ih (by omega) room id
      exact (checkIn_suffices turning walking calling parts options.maxDepth (by omega)).1 id

end

end Budget

namespace Validator

/-- Whatever is in the arena and in the memos, a check within these bounds is the check without
any: no bound is ever reached, whatever the answer there would be. -/
theorem check_stays_within_budget (validator : Validator) (value : Value) (id : SchemaId)
    (budget : Budget) (nesting : Nat)
    (nested : (value.height + 1) * (validator.options.maxDepth + 1) ≤ nesting)
    (calls : validator.options.maxDepth + 1 ≤ budget.calls)
    (turns : validator.state.arena.links.length + 1 ≤ budget.turns)
    (links : validator.options.maxDepth + 1 ≤ budget.links) :
    validator.perform (budget.check validator.options nesting value id) =
      validator.validateById value id := by
  have suffices' := budget.checkLevels_suffices turns links calls (value.height + 1)
    (Nat.lt_succ_self _) nested id
  have same := (suffices' validator.state validator.state.arena.charted_links).1
  simp only [validateById, perform, Budget.check, same, Validator.check]

/-- Nodes that no registry leads to: a union of itself, a combinator on itself and one on that
union, a reference and an indexed access in circles, an interface that inherits from itself, and
an array of an identity without a node. -/
def unruly : Validator :=
  ⟨{ maxDepth := 3 }, .ofArena ⟨#[.any, .literal .undefined, .union [⟨2⟩], .mapped .optional ⟨3⟩,
    .mapped (.overwrite ⟨3⟩) ⟨2⟩, .reference "m/A", .indexedAccess ⟨6⟩ "a",
    .interface [⟨"a", true, ⟨4⟩⟩] none [⟨7⟩], .array ⟨99⟩], [("m", [("A", ⟨5⟩)])]⟩⟩

/-- What the theorem asks for there, with an answer that no check gives. -/
def frugal : Budget :=
  ⟨4, 3, 4, .unknownPath "spent"⟩

theorem check_stays_within_budget_unruly :
    unruly.perform (frugal.check unruly.options 4 .undefined ⟨2⟩) = unruly.validateById .undefined ⟨2⟩ ∧
      unruly.perform (frugal.check unruly.options 8 (.array [.null]) ⟨4⟩) =
        unruly.validateById (.array [.null]) ⟨4⟩ := by
  refine ⟨check_stays_within_budget unruly .undefined ⟨2⟩ frugal 4 ?_ ?_ ?_ ?_,
    check_stays_within_budget unruly (.array [.null]) ⟨4⟩ frugal 8 ?_ ?_ ?_ ?_⟩
  all_goals decide +kernel

/-- Where there is too little of one of them, its answer is given. -/
example : (frugal.check unruly.options 3 .undefined ⟨2⟩ unruly.state).1 = .error frugal.spent ∧
    ({ frugal with calls := 3 }.check unruly.options 4 .undefined ⟨6⟩ unruly.state).1 =
      .error frugal.spent ∧
    ({ frugal with turns := 1 }.check unruly.options 4 .undefined ⟨5⟩ unruly.state).1 =
      .error frugal.spent ∧
    ({ frugal with links := 3 }.check unruly.options 4 .undefined ⟨3⟩ unruly.state).1 =
      .error frugal.spent :=
  ⟨rfl, rfl, rfl, rfl⟩

end Validator

end Conform
