import Conform.Proofs.Distribution.Foreign
import Conform.Proofs.Validator.Flattening

/-! The check against a union of combinators on members.  It comes to what the
combinators and the members alone determine, with the state that it ends before. -/

namespace Conform.Distributed

open Run Resolver Validator

variable {core levels steps : Nat} {before last : ResolverState} {options : Options} {value : Value}
  {member top union : SchemaId} {members tops : List SchemaId} {combinators : List Combinator}
  {chain : CombinatorChain} {fields : ForeignFields} {checkMember : SchemaId → Run Outcome}
  {evaluate : Nat → SchemaId → Except SchemaError Outcome} {answer : Except SchemaError Outcome}

/-- Whether some member accepts, from what the check of each one comes to. -/
def anyAt (last : ResolverState) (check : SchemaId → Except SchemaError Outcome)
    (failures : List Failure) (members : List SchemaId) : Except SchemaError Outcome :=
  (checkAny (fun member => Run.ofExcept (check member)) failures members last).1

/-- The check of a member under the combinators of a chain. -/
def checkAt (last : ResolverState) (options : Options) (levels : Nat) (value : Value)
    (fields : ForeignFields) : Nat → CombinatorChain → SchemaId → Except SchemaError Outcome
  | 0, _, _ => .error (.depthLimitExceeded 0)
  | fuel + 1, chain, member => do
      match ← walkAt last fuel chain member with
      | none =>
          let shape ← shapeAt last fuel chain member
          (checkFlat options (checkLevels options levels) value (some fields) shape last).1
      | some (inner, members) =>
          anyAt last (checkAt last options levels value fields fuel inner) [] members

/-- The check of all members under the combinators of a chain. -/
def unionAt (last : ResolverState) (options : Options) (levels : Nat) (value : Value) (fuel : Nat)
    (chain : CombinatorChain) (members : List SchemaId) : Except SchemaError Outcome := do
  let fields ← fieldsAt last fuel chain members
  anyAt last (checkAt last options levels value fields fuel chain) [] members

theorem anyAt_cons (last : ResolverState) (check : SchemaId → Except SchemaError Outcome)
    (failures : List Failure) (member : SchemaId) (rest : List SchemaId) :
    anyAt last check failures (member :: rest) = check member >>= fun
      | .success => .ok .success
      | .failure failure => anyAt last check (failure :: failures) rest := by
  simp only [anyAt, checkAny]
  cases checked : check member with
  | error error => exact congrArg Prod.fst (Run.bind_error (ofExcept_apply _))
  | ok outcome =>
      refine (congrArg Prod.fst (bind_ok (ofExcept_apply _))).trans ?_
      cases outcome <;> rfl

/-- The check of combinators on a member comes to what is evaluated for the
member. -/
def Mirrors (core : Nat) (last : ResolverState) (combinators : List Combinator)
    (checkMember : SchemaId → Run Outcome) (evaluate : Nat → SchemaId → Except SchemaError Outcome) :
    Prop :=
  ∀ before member top answer, Stacked core before member combinators top →
    Answers core last (checkMember top) before answer → Converges (evaluate · member) answer

theorem checkAny_mirrors (mirrors : Mirrors core last combinators checkMember evaluate)
    (stable : ∀ id, Stable core (checkMember id)) (failures : List Failure)
    (stacked : List.Forall₂ (Stacked core before · combinators ·) members tops)
    (answers : Answers core last (checkAny checkMember failures tops) before answer) :
    Converges (fun fuel => anyAt last (evaluate fuel) failures members) answer := by
  induction members generalizing tops before failures with
  | nil =>
      cases stacked
      cases answers.ok_eq rfl
      exact .const _
  | cons member members ih =>
      obtain ⟨top, tops, stack, rest, rfl⟩ := List.forall₂_cons_left_iff.mp stacked
      simp only [anyAt_cons]
      have onward_stable (outcome : Outcome) : Stable core (do
          match outcome with
          | .success => return .success
          | .failure failure => checkAny checkMember (failure :: failures) tops) := by
        cases outcome with
        | success => exact .pure _
        | failure failure => exact checkAny_stable stable _ _
      refine answers.sequence (stable top) onward_stable (fun _ begins => mirrors _ _ _ _ stack begins)
        fun outcome middle _ grows onward => ?_
      cases outcome with
      | success =>
          cases onward.ok_eq rfl
          exact .const _
      | failure failure =>
          exact ih _ (rest.imp fun _ _ stack => stack.later grows.grown) onward

/-- A combinator resolves to itself within the limit. -/
theorem Answers.resolved {α : Type} {limit : Nat} {node : Node} {next : SchemaId → Run α}
    {result : Except SchemaError α} (found : before.arena.get? top = some node)
    (concrete : node.IsConcrete)
    (answers : Answers core last (Resolver.resolve limit top >>= next) before result) :
    Answers core last (next top) before result := by
  cases limit with
  | zero => exact (answers.unlimited (Run.bind_error rfl)).elim
  | succ limit =>
      exact answers.onward ((resolves_concrete found concrete).lasts (limit + 1) limit).now answers.sound

/-- The shape of combinators is checked as what they make of the member. -/
theorem checkFlat_converges {limit : Nat} (stacked : Stacked core before member combinators top)
    (chained : chain.toList = combinators.reverse)
    (answers : Answers core last (Resolver.flatten limit top >>=
      checkFlat options (checkLevels options levels) value (some fields)) before answer) :
    Converges (fun fuel => shapeAt last fuel chain member >>= fun shape =>
      (checkFlat options (checkLevels options levels) value (some fields) shape last).1) answer := by
  refine answers.sequence (flatten_stable limit top) (fun _ => checkFlat_stable (checkLevels_stable levels))
    (fun _ begins => begins.flattens stacked chained) fun shape middle ran grows onward => ?_
  have ends := onward.grows (checkFlat_stable (checkLevels_stable levels))
  have known := ((flattenWithin_meets limit limit [] top before answers.sound).answers _ _ ran).1
  rcases checkFlat_outcome grows.sound ends.sound ends.grown (shape_issued grows.sound known) levels with
    limited | same
  · exact (onward.decided (onward.ran ▸ limited)).elim
  · rw [← same, onward.ran]
    exact .const _

theorem checkMember_mirrors (steps : Nat) (chained : chain.toList = combinators.reverse) :
    Mirrors core last combinators
      (checkMemberWithin options (checkLevels options levels) value steps fields)
      (checkAt last options levels value fields · chain) := by
  -- A distribution takes two steps, one to its union and one to the members there, which
  -- are again combinators on members.
  induction steps using Nat.strongRecOn generalizing chain combinators with
  | ind steps ih =>
  intro before member top answer stacked answers
  cases steps with
  | zero => exact (answers.unlimited rfl).elim
  | succ steps =>
      have applied := CombinatorChain.applied chained
      obtain ⟨_, _, node⟩ := stacked.mapped applied
      have checks : Answers core last (checkInterfaceLike options (checkLevels options levels) value
          (some fields) (checkMemberWithin options (checkLevels options levels) value steps fields) top)
          before answer := (Answers.resolved node trivial answers).node node
      have parts (part : Value) (id : SchemaId) : Stable core (checkLevels options levels part id) :=
        checkLevels_stable levels part id
      have unfolds := checks.unfolds (stacked.capped applied) chained ?stable
      case stable =>
        intro distributed
        cases distributed with
        | some union => exact checkMemberWithin_stable parts steps fields union
        | none => exact .bind (flatten_stable _ _) fun _ => checkFlat_stable parts
      cases unfolds with
      | failed error same walks =>
          cases same
          exact .of_succ (.bind_error walks)
      | none middle grows walks onward =>
          exact .of_succ (.bind walks (checkFlat_converges (stacked.later grows.grown) chained onward))
      | some middle union tops members inner grows known union_node towers walks onward =>
          cases steps with
          | zero => exact (onward.unlimited rfl).elim
          | succ steps =>
              have members_answer := (Answers.resolved union_node trivial onward).node union_node
              exact .of_succ (.bind walks (checkAny_mirrors (ih steps (by omega) (by simp))
                (checkMemberWithin_stable parts steps fields) [] towers members_answer))

/-- The check of a union of combinators depends on the combinators and the members
alone. -/
theorem Answers.checks (found : before.arena.get? union = some (.union tops))
    (stacked : List.Forall₂ (Stacked core before · combinators ·) members tops)
    (chained : chain.toList = combinators.reverse)
    (answers : Answers core last (checkWithin options (checkLevels options levels) value steps union)
      before answer) :
    Converges (unionAt last options levels value · chain members) answer := by
  cases steps with
  | zero => exact (answers.unlimited rfl).elim
  | succ steps =>
      have parts (part : Value) (id : SchemaId) : Stable core (checkLevels options levels part id) :=
        checkLevels_stable levels part id
      have stable (fields : ForeignFields) (id : SchemaId) : Stable core
          (checkMemberWithin options (checkLevels options levels) value steps fields id) :=
        checkMemberWithin_stable parts steps fields id
      exact (answers.node found).sequence (foreignFields_stable options.maxDepth union)
        (fun fields => checkAny_stable (stable fields) [] tops)
        (fun _ begins => begins.gathers found stacked chained)
        fun fields middle _ grows onward => checkAny_mirrors (checkMember_mirrors steps chained)
          (stable fields) [] (stacked.imp fun _ _ stack => stack.later grows.grown) onward

end Conform.Distributed
