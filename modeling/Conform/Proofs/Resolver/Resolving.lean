import Conform.Proofs.Resolver.Flattening

/-! Resolution and flattening keep a state sound, and what they answer is known
from then on.  Both follow the recursion of the two functions on the steps that
are left; within one step each part is given what the recursive calls do. -/

namespace Conform.Resolver

open Run

variable {core bound : Nat} {state before middle after : ResolverState}
  {id target resolved : SchemaId} {shape : Shape}

theorem resolveWithin_succ (limit steps : Nat) (id : SchemaId) (state : ResolverState) :
    resolveWithin limit (steps + 1) id state =
      follow (project (resolveWithin limit steps) (flattenWithin limit steps [])) state.arena.size
        [] id state :=
  rfl

theorem resolves_of_lasts
    (lasts : ∀ more, Lasts (follow recallProjection (state.arena.size + more) [] id) state resolved) :
    Resolves state id resolved := by
  intro later grown
  obtain ⟨more, size⟩ := Nat.exists_eq_add_of_le (Arena.size_mono (ResolverState.arena_le grown))
  rw [resolveWithin_succ, size]
  exact lasts more later grown

theorem resolveStep_meets {limit steps : Nat} (resolves : ResolveMeets core (resolveWithin limit steps))
    (flattens : FlattenMeets core (flattenWithin limit steps [])) :
    ResolveMeets core (resolveWithin limit (steps + 1)) := by
  intro id state sound
  have start : id.Within core (id.index + 1) := .inr (Nat.lt_succ_self _)
  have follows := follow_meets (project_meets resolves flattens) state.arena.size [] sound (.inl start)
  refine ⟨by simpa only [resolveWithin_succ] using follows.leaves, fun resolved after ran => ?_⟩
  rw [resolveWithin_succ] at ran
  have resolving := follows.always_ok ran
  obtain ⟨lasts, leads, bounded⟩ := follows.answers resolved after ran
  obtain ⟨added, size⟩ := Nat.exists_eq_add_of_le
    (Arena.size_mono (ResolverState.arena_le resolving.grown))
  refine ⟨resolves_of_lasts fun more => ?_, leads, bounded⟩
  rw [size, Nat.add_assoc]
  exact lasts (added + more)

theorem unlessKnown_meets {chain : List SchemaId} {compute : Run Shape} (sound : state.Sound core)
    (computes : state.shapes.find? id = none → Meets compute state (Resolving core state)
      fun shape after => after.shapes.find? id = some shape ∧ Bounded core bound state after) :
    Meets (unlessKnown chain id compute) state (Resolving core state) fun shape after =>
      after.shapes.find? id = some shape ∧ Bounded core bound state after := by
  have stays := Resolving.refl sound
  refine .bind (.read _ stays) ?_
  rintro _ _ - ⟨rfl, rfl⟩
  cases known : state.shapes.find? id with
  | some shape => exact .pure stays ⟨known, .refl⟩
  | none =>
      by_cases pending : chain.contains id = true
      · simp only [pending, if_true]
        exact .fail stays
      · simp only [pending]
        exact computes known

theorem Computes.shape_sound (computes : Computes core id.index (flattenNode · · id) before shape after)
    (unknown : after.shapes.find? id = none) : ShapeSound core after after.shapes.entries id shape :=
  ⟨unknown, computes.lasts after (le_refl _), computes.within, computes.distinct⟩

theorem flattenStep_meets {limit steps : Nat} {chain : List SchemaId}
    (resolves : ResolveMeets core (resolveWithin limit steps))
    (flattens : ∀ chain, FlattenMeets core (flattenWithin limit steps chain)) :
    FlattenMeets core (flattenWithin limit (steps + 1) chain) := by
  intro id state sound
  refine unlessKnown_meets sound fun _ => ?_
  refine .bind (flattenNode_meets resolves (flattens (id :: chain)) sound id) ?_
  intro shape middle resolving computes
  refine .of_ok keepShape_apply ?_ ⟨Memo.find?_settle _ _ _, fun other kept found => ?_⟩
  · exact ⟨le_trans resolving.grown (le_keepShape _ _ _),
      resolving.sound.keepShape computes.shape_sound, resolving.distributions,
      resolving.added⟩
  · rcases Memo.find?_settle_cases found with earlier | ⟨rfl, -, -⟩
    · exact computes.bounded.widen (.inl (Nat.le_succ _)) other kept earlier
    · exact .inr (.inr (Nat.lt_succ_self _))

theorem within_meets (limit steps : Nat) : ResolveMeets core (resolveWithin limit steps) ∧
    ∀ chain, FlattenMeets core (flattenWithin limit steps chain) := by
  induction steps with
  | zero =>
      refine ⟨fun id state sound => .fail (.refl sound), fun chain id state sound => ?_⟩
      exact unlessKnown_meets sound fun _ => .fail (.refl sound)
  | succ steps ih =>
      exact ⟨resolveStep_meets ih.1 (ih.2 []), fun chain => flattenStep_meets ih.1 ih.2⟩

theorem resolveWithin_meets (limit steps : Nat) : ResolveMeets core (resolveWithin limit steps) :=
  (within_meets limit steps).1

theorem flattenWithin_meets (limit steps : Nat) (chain : List SchemaId) :
    FlattenMeets core (flattenWithin limit steps chain) :=
  (within_meets limit steps).2 chain

theorem recallProjection_known {object projected : SchemaId} {index : String}
    (ran : recallProjection id object index state = (.ok projected, after)) :
    state.projections.find? id = some projected ∧ after = state := by
  obtain ⟨found, middle, reads, rest⟩ := of_bind_ok ran
  cases reads
  cases known : state.projections.find? id with
  | some earlier =>
      simp only [known, pure_apply] at rest
      cases rest
      exact ⟨rfl, rfl⟩
  | none =>
      simp only [known] at rest
      obtain ⟨_, _, resolves, -⟩ := of_bind_ok rest
      cases resolves

theorem hop_recalled {resolve : SchemaId → Run SchemaId} {flatten : SchemaId → Run Shape}
    {next : Option SchemaId} (ran : hop recallProjection id state = (.ok next, after)) :
    hop (project resolve flatten) id state = (.ok next, state) ∧ after = state := by
  obtain ⟨node, middle, reads, rest⟩ := of_bind_ok ran
  cases found : state.arena.get? id with
  | none =>
      rw [node_missing found] at reads
      cases reads
  | some present =>
      rw [node_apply found] at reads
      cases reads
      cases node with
      | reference target =>
          have answered := (hop_reference found _).symm.trans ran
          obtain rfl : state = after := congrArg Prod.snd answered
          exact ⟨(hop_reference found _).trans answered, rfl⟩
      | indexedAccess object index =>
          obtain ⟨projected, later, known, done⟩ := of_bind_ok rest
          obtain ⟨remembered, rfl⟩ := recallProjection_known known
          cases done
          exact ⟨(bind_ok (node_apply found)).trans (bind_ok (project_known remembered).now), rfl⟩
      | _ =>
          cases rest
          exact ⟨(hop_concrete found trivial).now, rfl⟩

theorem follow_recalled {resolve : SchemaId → Run SchemaId} {flatten : SchemaId → Run Shape}
    {hops : Nat} {visited : List SchemaId}
    (ran : follow recallProjection hops visited id state = (.ok resolved, after)) :
    follow (project resolve flatten) hops visited id state = (.ok resolved, after) := by
  induction hops generalizing visited id with
  | zero => exact ran
  | succ hops ih =>
      by_cases met : visited.contains id = true
      · rw [follow_met met] at ran ⊢
        exact ran
      · rw [follow_unmet met] at ran ⊢
        obtain ⟨next, middle, hopped, rest⟩ := of_bind_ok ran
        obtain ⟨again, rfl⟩ := hop_recalled hopped
        rw [bind_ok again]
        cases next with
        | none => exact rest
        | some next => exact ih rest

/-- A settled resolution takes a single step. -/
theorem Resolves.lasts (resolves : Resolves state id resolved) (limit steps : Nat) :
    Lasts (resolveWithin limit (steps + 1) id) state resolved :=
  fun later grown => follow_recalled (resolves later grown)

theorem flattenWithin_known (known : state.shapes.find? id = some shape) (limit steps : Nat)
    (chain : List SchemaId) : Lasts (flattenWithin limit steps chain id) state shape := by
  intro later grown
  have found := ResolverState.shape_later known grown
  have reads (compute : Run Shape) : unlessKnown chain id compute later = (.ok shape, later) := by
    simp only [unlessKnown, bind_ok (read_apply _), found, pure_apply]
  cases steps <;> exact reads _

end Conform.Resolver
