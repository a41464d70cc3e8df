import Conform.Proofs.Alias.Fates
import Conform.Proofs.Alias.Recalling
import Conform.Proofs.Resolver.Limited

/-! Shapes as ways.  The shape of a node is computed from shapes that the last state knows, or waits for
the first one that it does not know.  So what cannot be computed leads to where the first failure is, or
into a circle. -/

namespace Conform.Alias

open Relation Run Resolver Agreement Distributed

variable {core limit steps : Nat} {before last : ResolverState} {id other target : SchemaId}
  {chain : List SchemaId} {error : SchemaError} {shape : Shape}

/-- What the shape of a node comes to, of the shapes that are known. -/
def flattenAt (last : ResolverState) (id : SchemaId) (fuel : Nat) (missing : SchemaId → SchemaError) :
    Except SchemaError Shape :=
  (flattenNode (resolveWithin 0 fuel) (recallOr last missing) id last).1

/-- The shape of the second node is the first one that is missing for the shape of the first. -/
def WaitsFor (last : ResolverState) (id other : SchemaId) : Prop :=
  Converges (flattenAt last id) fun missing => .error (missing other)

/-- Nothing is missing for the shape of the node, but there is none. -/
def Shapeless (last : ResolverState) (id : SchemaId) (error : SchemaError) : Prop :=
  Converges (flattenAt last id) fun _ => .error error

/-- What shapes wait for in a state. -/
def inheritance (last : ResolverState) : Course SchemaId SchemaError where
  next := WaitsFor last
  ends := Shapeless last
  next_unique waits waits' := by
    cases congrFun (waits.unique waits') .cyclicInheritance
    rfl
  ends_unique fails fails' := by
    cases congrFun (fails.unique fails') .cyclicInheritance
    rfl
  apart waits fails := by
    have same := waits.unique fails
    have once := congrFun same fun _ => .depthLimitExceeded 0
    cases once.trans (congrFun same fun _ => .depthLimitExceeded 1).symm

/-- The error tells that a shape waits for itself. -/
def TellsOfInheritance (error : SchemaError) : Prop :=
  ∃ id, error = .cyclicInheritance id

theorem Awaits.unknown (awaits : Awaits core last limit steps chain before id error) :
    before.shapes.find? id = none := by
  have grows := awaits.fails.grows (flattenWithin_stable limit steps chain id)
  cases known : before.shapes.find? id with
  | none => rfl
  | some shape =>
      cases (unknown_of_fails awaits.unmet awaits.present awaits.fails).symm.trans
        (ResolverState.shape_later known grows.grown)

/-- A shape that is asked for while it is computed waits for itself. -/
theorem Awaits.closes (awaits : Awaits core last limit steps chain before id error)
    (cyclic : chain.contains id = true) (leads : ∀ earlier ∈ chain, TransGen (inheritance last).next earlier id) :
    (inheritance last).Comes TellsOfInheritance id error := by
  cases awaits.fails.error_eq (flattenWithin_cyclic awaits.unknown cyclic)
  exact .inr ⟨⟨id, rfl⟩, id, .refl, leads id (List.elem_iff.mp cyclic)⟩

/-- A shape that cannot be computed leads to the failure, or comes back. -/
theorem Awaits.comes (awaits : Awaits core last limit steps chain before id error)
    (leads : ∀ earlier ∈ chain, TransGen (inheritance last).next earlier id) :
    (inheritance last).Comes TellsOfInheritance id error := by
  induction steps generalizing chain before id with
  | zero =>
      by_cases cyclic : chain.contains id = true
      · exact awaits.closes cyclic leads
      · exact (awaits.fails.unlimited (flattenWithin_none awaits.unknown cyclic)).elim
  | succ steps ih =>
      by_cases cyclic : chain.contains id = true
      · exact awaits.closes cyclic leads
      have pending : Unmet last before (id :: chain) := by
        intro earlier listed
        rcases List.mem_cons.mp listed with rfl | listed
        · exact ⟨awaits.present, unknown_of_fails awaits.unmet awaits.present awaits.fails⟩
        · exact awaits.unmet earlier listed
      have computes := awaits.fails.congr (flattenWithin_unknown awaits.unknown cyclic)
      rcases computes.split (flattenNode_stable limit steps (id :: chain) id) with
        ⟨_, same, fails⟩ | ⟨_, _, -, -, kept⟩
      · cases same
        cases flattenNode_recalls pending awaits.present fails with
        | fails stops => exact .inl (.here stops)
        | waits stops waits =>
            obtain ⟨middle, awaits⟩ := waits
            exact .of_step stops leads fun leads' => ih awaits leads'
      · cases kept.ok_eq keepShape_apply

/-- What the shape of a node comes to before the last state: one that is known there, or the failure that
its computation leads to. -/
inductive FlattensTo (last : ResolverState) (id : SchemaId) : Except SchemaError Shape → Prop
  | known {shape : Shape} (known : last.shapes.find? id = some shape) : FlattensTo last id (.ok shape)
  | fails {error : SchemaError} (unknown : last.shapes.find? id = none)
      (comes : (inheritance last).Comes TellsOfInheritance id error) : FlattensTo last id (.error error)

theorem flattensTo_of_answers {answer : Except SchemaError Shape} (present : id.index < before.arena.size)
    (answers : Answers core last (flattenWithin limit steps [] id) before answer) : FlattensTo last id answer := by
  have unmet : Unmet last before [] := fun _ listed => (List.not_mem_nil listed).elim
  have stable : Stable core (flattenWithin limit steps [] id) := flattenWithin_stable limit steps [] id
  rcases answers.outcome stable with ⟨error, rfl⟩ | ⟨shape, after, ran, -, ends, rfl⟩
  · exact .fails (unknown_of_fails unmet present answers)
      (Awaits.comes ⟨unmet, present, answers⟩ fun _ listed => (List.not_mem_nil listed).elim)
  · have known := ((flattenWithin_meets limit steps [] id before answers.sound).answers _ _ ran).1
    exact .known (ResolverState.shape_later known ends.grown)

/-- What is known of a shape can be computed from what else is known. -/
theorem flattenAt_known (sound : last.Sound core) (known : last.shapes.find? id = some shape) :
    Converges (flattenAt last id) fun _ => .ok shape := by
  obtain ⟨older, suffix, accounted⟩ := shape_sound sound known
  refine ⟨1, fun fuel enough => funext fun missing => ?_⟩
  obtain ⟨fewer, rfl⟩ := Nat.exists_eq_add_of_le' enough
  have resolves (other : SchemaId) : CutsOff (.depthLimitExceeded 0) (resolveWithin 0 1 other)
      (resolveWithin 0 (fewer + 1) other) := (within_limits 0 0 (by omega)).1 other
  have recalls (other : SchemaId) : CutsOff (.depthLimitExceeded 0) (recallShape older other)
      (recallOr last missing other) := by
    intro state
    cases found : older.lookup other with
    | none => exact .inl (by rw [recallShape_none found]; rfl)
    | some shape =>
        refine .inr ?_
        rw [recallShape_some found, recallOr_known (shape_of_suffix sound ((List.suffix_cons _ _).trans suffix) found)
          missing state]
        rfl
  rcases flattenNode_related (cutoff_steps _) resolves recalls id last with limited | same
  · cases (congrArg Prod.fst accounted.computed.now).symm.trans limited
  · exact congrArg Prod.fst (same.symm.trans accounted.computed.now)

theorem Course.Comes.not_computed (comes : (inheritance last).Comes TellsOfInheritance id error) :
    ¬ Converges (flattenAt last id) fun _ => .ok shape := by
  intro computed
  rcases comes.starts with stops | ⟨_, stops, -⟩ <;>
    cases congrFun (stops.unique computed) .cyclicInheritance

theorem Course.Comes.uncircled {again : SchemaError}
    (comes : (inheritance last).Comes TellsOfInheritance id error)
    (comes' : (inheritance last).Comes TellsOfInheritance id again) : error.uncircled = again.uncircled := by
  rcases comes.cases comes' with rfl | ⟨⟨_, rfl⟩, _, rfl⟩ <;> rfl

end Conform.Alias
