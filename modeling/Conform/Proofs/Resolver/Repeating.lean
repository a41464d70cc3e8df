import Conform.Proofs.Resolver.Demanding

/-! Resolution and flattening, repeated.  Where one of them fails it has remembered nothing that it
was still waiting for, so it comes to the same failure again, and adds nothing on the way. -/

namespace Conform.Resolver

open Run

variable {core limit steps : Nat} {chain : List SchemaId} {id : SchemaId} {state : ResolverState}
  {pending : List Demand}

theorem hopWithin_careful (sound : state.Sound core)
    (behind : ∀ object, Careful core limit steps chain 1 (fun steps _ => shapeBehind
      (resolveWithin limit steps) (flattenWithin limit steps []) .indexOnNonInterface object) state) :
    Careful core limit steps chain 2 (fun steps _ => hopWithin limit steps id) state := by
  have start : id.Within core (id.index + 1) := .inr (Nat.lt_succ_self _)
  refine ⟨fun pending unmet needed => ?_, fun next after ran => ?_⟩
  · cases found : state.arena.get? id with
    | none => exact .of_idle (congrArg Prod.snd (bind_error (node_missing found))) sound unmet rfl
    | some node =>
        cases node with
        | indexedAccess object index => exact access_spares sound unmet found needed (behind object)
        | reference name =>
            exact .of_idle (congrArg Prod.snd (hop_reference found _)) sound unmet rfl
        | _ => exact .of_idle (congrArg Prod.snd (bind_ok (node_apply found))) sound unmet rfl
  · have lasts := ((hop_meets (project_meets (resolveWithin_meets limit steps) (flattenWithin_meets limit steps []))
      sound (.inl start)).answers next after ran).1
    have again (steps : Nat) : Lasts (hopWithin limit steps id) after next := fun later grown =>
      (hop_recalled (lasts later grown)).1
    exact ⟨.of_lasts (again steps), .of_lasts fun steps _ => again steps⟩

/-- A chain followed on, with a hop for every node that has not been met. -/
def chase (limit steps : Nat) (visited : List SchemaId) (id : SchemaId) : Run SchemaId := do
  let size ← Run.read fun state => state.arena.size
  follow (project (resolveWithin limit steps) (flattenWithin limit steps [])) (size - visited.length)
    visited id

/-- A link that is not met yet is a hop away from the rest of the chain. -/
theorem chase_unmet {visited : List SchemaId} {size hops : Nat} {node : Node}
    (enough : Enough size hops visited state) (found : state.arena.get? id = some node)
    (link : ¬ node.IsConcrete) (unmet : ¬ visited.contains id = true) :
    chase limit steps visited id state = (hopWithin limit steps id >>= fun next =>
      match next with
      | some next => follow (project (resolveWithin limit steps) (flattenWithin limit steps []))
          (state.arena.size - (id :: visited).length) (id :: visited) next
      | none => pure id) state := by
  have renewed := enough.renew (le_refl _)
  cases left : state.arena.size - visited.length with
  | zero =>
      rw [left] at renewed
      exact (unmet (List.elem_iff.mpr (renewed.met found link))).elim
  | succ hops =>
      have fewer : state.arena.size - (id :: visited).length = hops := by
        simp only [List.length_cons]
        omega
      rw [fewer]
      refine (congrArg (fun hops => follow _ hops visited id state) left).trans ?_
      exact congrFun (follow_unmet unmet) state

/-- The chain is closed at a node that it stands on, and at one that leads nowhere. -/
theorem follow_ends {project : SchemaId → SchemaId → String → Run SchemaId} {visited : List SchemaId}
    (ends : visited.contains id = true ∨ ∀ node, state.arena.get? id = some node → node.IsConcrete)
    (hops : Nat) : follow project hops visited id state = closeChain id state := by
  by_cases met : visited.contains id = true
  · rw [follow_met met]
  cases found : state.arena.get? id with
  | some node =>
      have concrete := ends.resolve_left met node found
      exact (follow_concrete found concrete hops visited).now.trans (closeChain_concrete found concrete).now.symm
  | none =>
      have closes : closeChain id state = (.error (.unknownId id), state) :=
        bind_error (node_missing found)
      cases hops with
      | zero => rfl
      | succ hops =>
          rw [follow_unmet met, closes]
          exact bind_error (bind_error (node_missing found))

theorem follow_ends_spares {visited : List SchemaId} (sound : state.Sound core) (unmet : Open pending state)
    (ends : visited.contains id = true ∨ ∀ node, state.arena.get? id = some node → node.IsConcrete)
    (hops : Nat) : Spares core pending
      (follow (project (resolveWithin limit steps) (flattenWithin limit steps [])) hops visited id)
      (chase limit steps visited id) state := by
  refine .of_idle ?_ sound unmet ((follow_ends ends _).trans (follow_ends ends _).symm)
  rw [follow_ends ends]
  exact (closeChain_meets id state).leaves.symm

/-- Each hop is needed for the rest of the chain. -/
theorem follow_spares {size hops : Nat} {visited : List SchemaId} (sound : state.Sound core)
    (unmet : Open pending state) (enough : Enough size hops visited state)
    (needed : Needed core limit pending state 2 fun steps _ => chase limit steps visited id)
    (behind : ∀ object state, state.Sound core → Careful core limit steps chain 1 (fun steps _ =>
      shapeBehind (resolveWithin limit steps) (flattenWithin limit steps []) .indexOnNonInterface object)
      state) :
    Spares core pending
      (follow (project (resolveWithin limit steps) (flattenWithin limit steps [])) hops visited id)
      (chase limit steps visited id) state := by
  induction hops generalizing visited id state with
  | zero =>
      refine follow_ends_spares sound unmet (Classical.or_iff_not_imp_left.mpr fun unmet node found => ?_) 0
      exact Classical.byContradiction fun link => unmet (List.elem_iff.mpr (enough.met found link))
  | succ hops ih =>
      by_cases ends : visited.contains id = true ∨
          ∀ node, state.arena.get? id = some node → node.IsConcrete
      · exact follow_ends_spares sound unmet ends (hops + 1)
      obtain ⟨new, leads⟩ := not_or.mp ends
      obtain ⟨node, leads⟩ := Classical.not_forall.mp leads
      obtain ⟨found, link⟩ := Classical.not_imp.mp leads
      have unlisted : id ∉ visited := fun listed => new (List.elem_iff.mpr listed)
      have again {later : ResolverState} (grown : state ≤ later) (steps : Nat) :
          chase limit steps visited id later = _ :=
        chase_unmet (enough.renew grown) (ResolverState.get?_later found grown) link new
      have hopped : Needed core limit pending state 2 fun steps _ => hopWithin limit steps id := by
        refine needed.along fun later grown _ bound stuck steps below chain => ?_
        obtain ⟨error, after, failed⟩ := stuck steps below chain
        exact ⟨error, after, (again grown steps).trans (bind_error failed)⟩
      have careful : Careful core limit steps chain 2 (fun steps _ => hopWithin limit steps id) state :=
        hopWithin_careful sound fun object => behind object state sound
      rw [follow_unmet new]
      refine (careful.spares pending unmet hopped).sequence
        (fun error after grown failed => (again grown steps).trans (bind_error failed)) ?_
      intro next middle ran resolving unmet'
      obtain ⟨settles, holds⟩ := careful.answers next middle ran
      cases next with
      | none =>
          exact ⟨pure id, .of_idle rfl resolving.sound unmet' rfl, fun later grown sound' =>
            (again (le_trans resolving.grown grown) steps).trans (bind_ok (settles later grown sound'))⟩
      | some next =>
          refine ⟨chase limit steps (id :: visited) next, ?_, fun later grown sound' =>
            (again (le_trans resolving.grown grown) steps).trans (bind_ok (settles later grown sound'))⟩
          refine ih resolving.sound unmet' ((enough.cons found link unlisted).later resolving.addsConcrete) ?_
          refine (needed.later resolving.grown).along
            fun later grown sound' bound stuck steps below chain => ?_
          have onward := again (le_trans resolving.grown grown) steps
          rcases holds later grown sound' steps chain with ⟨error, after, failed⟩ | ran'
          · exact ⟨error, after, onward.trans (bind_error failed)⟩
          · obtain ⟨error, after, failed⟩ := stuck steps below chain
            exact ⟨error, after, onward.trans ((bind_ok ran').trans failed)⟩

theorem resolveStep_careful (sound : state.Sound core)
    (behind : ∀ object state, state.Sound core → Careful core limit steps chain 1 (fun steps _ =>
      shapeBehind (resolveWithin limit steps) (flattenWithin limit steps []) .indexOnNonInterface object)
      state) :
    Careful core limit (steps + 1) chain 1 (fun steps _ => resolveWithin limit steps id) state := by
  refine ⟨fun pending unmet needed => ?_, fun resolved after ran => ?_⟩
  · have chased : Needed core limit pending state 2 fun steps _ => chase limit steps [] id := by
      refine needed.below fun later _ _ bound stuck steps below chain => ?_
      cases steps with
      | zero => exact ⟨_, later, rfl⟩
      | succ steps => exact stuck steps (Nat.lt_of_succ_lt_succ below) chain
    obtain ⟨resolving, traced, unmet', repeats⟩ :=
      follow_spares sound unmet (Enough.start state) chased behind
    exact ⟨resolving, traced, unmet', repeats⟩
  · obtain ⟨resolves, -⟩ := (resolveWithin_meets limit (steps + 1) id state sound).answers resolved after ran
    refine ⟨.of_lasts (resolves.lasts limit steps), fun later grown _ steps _ => ?_⟩
    cases steps with
    | zero => exact .inl ⟨_, later, rfl⟩
    | succ steps => exact .inr (resolves.lasts limit steps later grown)

theorem flattenStep_careful (chain : List SchemaId) (sound : state.Sound core)
    (node : Careful core limit steps chain 1 (fun steps chain => flattenNode (resolveWithin limit steps)
      (flattenWithin limit steps (id :: chain)) id) state) :
    Careful core limit (steps + 1) chain 1 (fun steps chain => flattenWithin limit steps chain id) state :=
  ⟨fun _ unmet needed => flattenStep_spares sound unmet needed node.spares,
    fun _ _ ran => flattenWithin_answers chain sound ran⟩

theorem within_careful (limit steps : Nat) :
    (∀ chain id state, state.Sound core →
        Careful core limit steps chain 1 (fun steps _ => resolveWithin limit steps id) state) ∧
      ∀ chain id state, state.Sound core →
        Careful core limit steps chain 1 (fun steps chain => flattenWithin limit steps chain id) state := by
  induction steps with
  | zero =>
      refine ⟨fun chain id state sound => ⟨fun _ unmet _ => .of_idle rfl sound unmet rfl,
        fun _ _ ran => by cases ran⟩, fun chain id state sound => ⟨fun _ unmet _ => ?_,
        fun _ _ ran => flattenWithin_answers chain sound ran⟩⟩
      refine .of_idle ?_ sound unmet rfl
      cases known : state.shapes.find? id with
      | some shape => exact congrArg Prod.snd (flattenWithin_known known limit 0 chain state (le_refl _))
      | none =>
          by_cases waits : chain.contains id = true
          · exact congrArg Prod.snd (unlessKnown_cyclic known waits)
          · exact congrArg Prod.snd (unlessKnown_compute known waits)
  | succ steps ih =>
      obtain ⟨resolves, flattens⟩ := ih
      refine ⟨fun chain id state sound => resolveStep_careful sound fun object state sound => ?_,
        fun chain id state sound => flattenStep_careful chain sound ?_⟩
      · exact shapeBehind_careful (resolves chain)
          (fun id state sound => (flattens [] id state sound).relabel fun _ => []) _ object sound
      · exact flattenNode_careful (resolves chain)
          (fun other state sound => (flattens (id :: chain) other state sound).relabel (id :: ·)) id sound

end Conform.Resolver
