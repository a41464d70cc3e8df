import Conform.Proofs.Distribution.Sweeping

/-! A search for foreign fields that fails.  It fails at the first node whose sweep
fails, since everything before that node has been searched to its end. -/

namespace Conform.Distributed

open Run Resolver Agreement

variable {core limit steps floor : Nat} {before last : ResolverState}
  {id member target top union : SchemaId} {ids members tops : List SchemaId}
  {combinator : Combinator} {combinators : List Combinator} {chain : CombinatorChain}
  {collected : Collected} {error : SchemaError}
  {collect : Collected → List SchemaId → Run Collected}

/-- A search that fails has searched the nodes before the one that it fails at. -/
theorem fold_fails (gathered : Gathered before collected)
    (marked : Marked core before collected.visited floor none)
    (answers : Answers core last (ids.foldlM (visit limit steps (collectWithin limit steps)) collected)
      before (.error error)) :
    ∃ done id rest middle met, ids = done ++ id :: rest ∧ Grows core before middle ∧
      Gathered middle met ∧ Marked core middle met.visited floor none ∧
      collected.visited ⊆ met.visited ∧
      (∀ other ∈ done, ∃ resolved ∈ met.visited, Resolves middle other resolved) ∧
      Answers core last (visit limit steps (collectWithin limit steps) met id) middle (.error error) := by
  induction ids generalizing before collected with
  | nil => cases answers.ok_eq rfl
  | cons id rest ih =>
      rw [List.foldlM_cons] at answers
      rcases answers.split (visit_stable (collectWithin_stable limit steps) limit steps collected id) with
        ⟨_, same, fails⟩ | ⟨result, middle, ran, grows, onward⟩
      · cases same
        exact ⟨[], id, rest, before, collected, rfl, .refl answers.sound, gathered, marked,
          List.Subset.refl _, fun _ listed => (List.not_mem_nil listed).elim, fails⟩
      · have collects := (visit_meets (collectWithin_meets limit steps) answers.sound gathered).answers
          result middle ran
        have marked' : Marked core middle result.visited floor none :=
          marked.collects gathered grows collects fun _ awaited => nomatch awaited
        obtain ⟨done, stuck, others, later, met, split, grows', gathered', marked'', subset, each, fails⟩ :=
          ih collects.gathered marked' onward
        refine ⟨id :: done, stuck, others, later, met, by rw [split]; rfl, grows.trans grows', gathered',
          marked'', fun _ inside => subset (collects.subset inside), fun other listed => ?_, fails⟩
        rcases List.mem_cons.mp listed with rfl | listed
        · obtain ⟨resolved, inside, resolves⟩ := collects.covers other (List.mem_singleton_self _)
          exact ⟨resolved, subset inside, resolves.later grows'.grown⟩
        · exact each other listed

/-- A visit that fails enters its node. -/
theorem visit_entered {node : Node} (found : before.arena.get? id = some node)
    (concrete : node.IsConcrete)
    (answers : Answers core last (visit limit steps collect collected id) before (.error error)) :
    ∃ fewer, steps = fewer + 1 ∧ id ∉ collected.visited ∧
      Answers core last (enter limit steps collect collected id) before (.error error) := by
  rw [visit_eq] at answers
  cases steps with
  | zero => exact (answers.unlimited (bind_error rfl)).elim
  | succ steps =>
      have entered := answers.onward ((resolves_concrete found concrete).lasts limit steps).now answers.sound
      refine ⟨steps, rfl, fun inside => ?_, entered⟩
      have met : collected.visited.contains id = true := List.elem_iff.mpr inside
      have stays : enter limit (steps + 1) collect collected id before = (.ok collected, before) := by
        simp only [enter, met, if_true, pure_apply]
      cases entered.ok_eq stays

/-- A visit of a union or intersection that fails enters its members. -/
theorem visit_members {node : Node} (found : before.arena.get? union = some node)
    (combines : node = .union tops ∨ node = .intersection tops)
    (answers : Answers core last (visit limit steps collect collected union) before (.error error)) :
    ∃ fewer, steps = fewer + 1 ∧
      Answers core last (collect (collected.mark union) tops) before (.error error) := by
  have concrete : node.IsConcrete := by rcases combines with rfl | rfl <;> trivial
  obtain ⟨fewer, same, new, entered⟩ := visit_entered found concrete answers
  have unmet : ¬ collected.visited.contains union = true := fun met => new (List.elem_iff.mp met)
  rw [enter, if_neg unmet] at entered
  refine ⟨fewer, same, ?_⟩
  rcases combines with rfl | rfl <;> exact entered.node found

theorem visit_mapped (found : before.arena.get? top = some (.mapped combinator target))
    (answers : Answers core last (visit limit steps collect collected top) before (.error error)) :
    Answers core last (do
        match ← distributeWithin limit steps top with
        | some union => collect (collected.mark top) [union]
        | none =>
            let shape ← flattenWithin limit steps [] top
            return (collected.mark top).absorb shape) before (.error error) := by
  obtain ⟨fewer, same, new, entered⟩ := visit_entered found trivial answers
  have unmet : ¬ collected.visited.contains top = true := fun met => new (List.elem_iff.mp met)
  rw [enter, if_neg unmet] at entered
  exact entered.node found

/-- A visit fails as the sweep of its node does. -/
def VisitFails (core : Nat) (last : ResolverState) (limit steps : Nat) : Prop :=
  ∀ before collected floor member combinators chain top error, Gathered before collected →
    Marked core before collected.visited floor none → Stacked core before member combinators top →
    chain.toList = combinators.reverse → floor ≤ 2 * top.index + 2 →
    Answers core last (visit limit steps (collectWithin limit steps) collected top) before
      (.error error) → Converges (sweepAt last · chain member) (.error error)

theorem exists_split {α β : Type} {related : α → β → Prop} {firsts : List α} {done rest : List β}
    {second : β} (all : List.Forall₂ related firsts (done ++ second :: rest)) :
    ∃ before first after, firsts = before ++ first :: after ∧ List.Forall₂ related before done ∧
      related first second := by
  induction done generalizing firsts with
  | nil =>
      obtain ⟨first, after, here, -, rfl⟩ := List.forall₂_cons_right_iff.mp all
      exact ⟨[], first, after, rfl, .nil, here⟩
  | cons other done ih =>
      obtain ⟨first, others, here, there, rfl⟩ := List.forall₂_cons_right_iff.mp all
      obtain ⟨before, stuck, after, rfl, earlier, at_stuck⟩ := ih there
      exact ⟨first :: before, stuck, after, rfl, .cons here earlier, at_stuck⟩

theorem tops_fail (visits : VisitFails core last limit steps) (gathered : Gathered before collected)
    (marked : Marked core before collected.visited floor none)
    (stacked : List.Forall₂ (Stacked core before · combinators ·) members tops)
    (chained : chain.toList = combinators.reverse) (above : ∀ top ∈ tops, floor ≤ 2 * top.index + 2)
    (answers : Answers core last (collectWithin limit (steps + 1) collected tops) before (.error error)) :
    Converges (fun fuel => sweepAll (sweepAt last fuel chain) members) (.error error) := by
  obtain ⟨done, top, rest, middle, met, rfl, grows, gathered', marked', -, each, fails⟩ :=
    fold_fails gathered marked answers
  obtain ⟨earlier, member, others, rfl, towers, stack⟩ := exists_split stacked
  have ends := fails.grows (visit_stable (collectWithin_stable limit steps) limit steps met top)
  refine sweepAll_fails (fun other listed => ?_) (visits _ _ _ _ _ _ _ _ gathered' marked'
    (stack.later grows.grown) chained (above top (by simp)) fails)
  obtain ⟨searched, inside, stack'⟩ := exists_counterpart towers listed
  obtain ⟨_, _, node⟩ := (stack'.later grows.grown).mapped (CombinatorChain.applied chained)
  obtain ⟨resolved, entered, resolves⟩ := each searched inside
  cases resolves.concrete node trivial
  obtain ⟨shapes, sweeps, -⟩ := swept ends.sound (marked'.later gathered' ends)
    (stack'.later (grows.trans ends).grown) chained (above searched (by simp [inside])) entered
  exact ⟨shapes, sweeps⟩

/-- The literal `undefined` is no combinator. -/
theorem not_undefined (sound : before.Sound core)
    (stacked : List.Forall₂ (Stacked core before · combinators ·) members tops)
    (applied : combinators ≠ []) : Arena.undefined ∉ tops := by
  intro listed
  obtain ⟨_, -, stack⟩ := exists_origin stacked listed
  obtain ⟨_, _, node⟩ := stack.mapped applied
  cases node.symm.trans sound.undefined

theorem union_fails (above : Nat) (visits : ∀ fewer, steps = fewer + 1 → VisitFails core last limit fewer)
    (gathered : Gathered before collected) (marked : Marked core before collected.visited floor none)
    (found : before.arena.get? union = some (.union tops))
    (stacked : List.Forall₂ (Stacked core before · combinators ·) members tops)
    (chained : chain.toList = combinators.reverse)
    (below : ∀ rank, Ranked before union rank → rank < above) (floor_le : floor ≤ above)
    (ahead : ∀ top ∈ tops, above ≤ 2 * top.index + 2)
    (answers : Answers core last (visit limit steps (collectWithin limit steps) collected union) before
      (.error error)) :
    Converges (fun fuel => sweepAll (sweepAt last fuel chain) members) (.error error) := by
  obtain ⟨fewer, rfl, collects⟩ := visit_members found (.inl rfl) answers
  have gathered' : Gathered before (collected.mark union) :=
    gathered.mark ⟨_, found, nofun⟩ (silent_of_node found rfl)
  have marked' : Marked core before (collected.mark union).visited above none := by
    refine (marked.await (some union)).enter (resolves_concrete found trivial) below floor_le
      fun type node => ?_
    cases found.symm.trans node
    exact (not_undefined answers.sound stacked (CombinatorChain.applied chained)
      (by simp)).elim
  exact tops_fail (visits fewer rfl) gathered' marked' stacked chained ahead collects

/-- The search of the union that combinators stand for. -/
theorem distributed_fails {inner : CombinatorChain} (ih : ∀ fewer < steps, VisitFails core last limit fewer)
    (gathered : Gathered before collected) (marked : Marked core before collected.visited floor none)
    (floor_le : floor ≤ 2 * top.index + 2) (node : before.arena.get? top = some (.mapped combinator target))
    (known : before.distributions.find? top = some union)
    (union_node : before.arena.get? union = some (.union tops))
    (stacked : List.Forall₂ (Stacked core before · inner.toList.reverse ·) members tops)
    (answers : Answers core last (collectWithin limit steps (collected.mark top) [union]) before
      (.error error)) :
    Converges (fun fuel => sweepAll (sweepAt last fuel inner) members) (.error error) := by
  have sound := answers.sound
  have gathered' : Gathered before (collected.mark top) :=
    gathered.mark ⟨_, node, fun _ => .inl ⟨union, known⟩⟩ (silent_of_distribution sound known)
  -- Everything ranked below the floor may still be open: `top` and its union, in that order.
  have marked' : Marked core before (collected.mark top).visited (2 * top.index + 3) none := by
    refine (marked.await (some top)).enter (resolves_concrete node trivial) (fun rank ranked => ?_)
      (by omega) fun type union_node => ?_
    · rw [ranked.unique sound (.mapped node)]
      omega
    · cases node.symm.trans union_node
  have below (rank : Nat) (ranked : Ranked before union rank) : rank < 2 * top.index + 4 := by
    rw [ranked.unique sound (.union known)]
    omega
  have ahead (other : SchemaId) (listed : other ∈ tops) : 2 * top.index + 4 ≤ 2 * other.index + 2 := by
    obtain ⟨-, behind⟩ := members_ahead sound known union_node listed
    omega
  cases steps with
  | zero => exact (answers.unlimited rfl).elim
  | succ steps =>
      rcases answers.split (visit_stable (collectWithin_stable limit steps) limit steps
        (collected.mark top) union) with ⟨_, same, fails⟩ | ⟨_, _, -, -, rest⟩
      · cases same
        exact union_fails (2 * top.index + 4) (fun fewer same => ih fewer (by omega)) gathered' marked'
          union_node stacked (by simp) below (by omega) ahead fails
      · cases rest.ok_eq rfl

theorem visit_fails (limit steps : Nat) : VisitFails core last limit steps := by
  induction steps using Nat.strongRecOn with
  | ind steps ih =>
  intro before collected floor member combinators chain top error gathered marked stacked chained above
    answers
  have applied := CombinatorChain.applied chained
  obtain ⟨combinator, inner, node⟩ := stacked.mapped applied
  have stable (distributed : Option SchemaId) : Stable core (do
      match distributed with
      | some union => collectWithin limit steps (collected.mark top) [union]
      | none =>
          let shape ← flattenWithin limit steps [] top
          return (collected.mark top).absorb shape) := by
    cases distributed with
    | some union => exact collectWithin_stable limit steps _ _
    | none => exact .bind (flattenWithin_stable limit steps [] top) fun _ => .pure _
  cases (visit_mapped node answers).unfolds (stacked.capped applied) chained stable with
  | failed error same walks =>
      cases same
      exact sweepAt_failed walks
  | none middle grows walks onward =>
      rcases onward.split (flattenWithin_stable limit steps [] top) with
        ⟨_, same, fails⟩ | ⟨_, _, -, -, rest⟩
      · cases same
        exact sweepAt_shapeless walks (fails.flattens (stacked.later grows.grown) chained)
      · cases rest.ok_eq rfl
  | some middle union tops members inner grows known union_node towers walks onward =>
      exact sweepAt_members walks (distributed_fails ih (gathered.later grows) (marked.later gathered grows)
        above (ResolverState.get?_later node grows.grown) known union_node towers onward)

end Conform.Distributed
