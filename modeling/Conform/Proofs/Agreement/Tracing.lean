import Conform.Proofs.Agreement.Distributing

/-! A search on the left alone.  It stays within branches whose counterparts on
the right are known to lead nowhere else, so it fails only at its limit. -/

namespace Conform.Agreement

open Run Resolver

variable {core : Nat} {world : World} {id other resolved otherResolved : SchemaId}
  {ids otherIds visited : List SchemaId} {inside : SchemaId → Prop} {collected : Collected}

/-- The part of a visit that follows resolution. -/
def enter (limit steps : Nat) (collect : Collected → List SchemaId → Run Collected)
    (collected : Collected) (resolved : SchemaId) : Run Collected :=
  if collected.visited.contains resolved then return collected
  else do
    match ← Run.node resolved with
    | .union members | .intersection members => collect (collected.mark resolved) members
    | .interface _ _ _ | .mapped _ _ =>
        match ← distributeWithin limit steps resolved with
        | some union => collect (collected.mark resolved) [union]
        | none =>
            let shape ← flattenWithin limit steps [] resolved
            return (collected.mark resolved).absorb shape
    | _ => return collected.mark resolved

theorem visit_eq (limit steps : Nat) (collect : Collected → List SchemaId → Run Collected)
    (collected : Collected) (id : SchemaId) : visit limit steps collect collected id =
      resolveWithin limit steps id >>= enter limit steps collect collected :=
  rfl

/-- One step behind a branch on the right, everything is inside again. -/
def Confined (state : ResolverState) (inside : SchemaId → Prop) (id : SchemaId) : Prop :=
  ∃ node, state.arena.get? id = some node ∧
    match node with
    | .union members | .intersection members =>
        ∀ member ∈ members, ∃ resolved, inside resolved ∧ Resolves state member resolved
    | .interface _ _ _ | .mapped _ _ =>
        (∃ union, inside union ∧ state.distributions.find? id = some union) ∨
          ∃ shape, Declares state id shape
    | _ => True

/-- What is inside is confined, or has been visited on the left and has no other
counterpart there. -/
def Closed (core : Nat) (state : ResolverState) (visited : List SchemaId)
    (inside : SchemaId → Prop) : Prop :=
  ∀ id, inside id → (id ∈ visited ∧ ¬ Synthetic core state id) ∨ Confined state inside id

/-- All that the left run has visited besides has its counterpart inside. -/
def Traces (world next : World) (inside : SchemaId → Prop) (collected result : Collected) : Prop :=
  next.right = world.right ∧ collected.visited ⊆ result.visited ∧
    ∀ id ∈ result.visited, id ∈ collected.visited ∨ ∃ other, next.ids id other ∧ inside other

theorem Traces.refl : Traces world world inside collected collected :=
  ⟨rfl, List.Subset.refl _, fun _ listed => .inl listed⟩

theorem Traces.trans {middle next : World} {marked result : Collected}
    (first : Traces world middle inside collected marked)
    (second : Traces middle next inside marked result) (grown : middle.Extends next) :
    Traces world next inside collected result := by
  refine ⟨second.1.trans first.1, fun id listed => second.2.1 (first.2.1 listed), fun id listed => ?_⟩
  rcases second.2.2 id listed with earlier | there
  · rcases first.2.2 id earlier with earliest | ⟨other, pair, within⟩
    · exact .inl earliest
    · exact .inr ⟨other, grown.ids _ _ pair, within⟩
  · exact .inr there

theorem Traces.later {middle next : World} {result : Collected}
    (traces : Traces world middle inside collected result) (grown : middle.Extends next)
    (right : next.right = middle.right) : Traces world next inside collected result :=
  ⟨right.trans traces.1, traces.2.1, fun id listed => (traces.2.2 id listed).imp_right
    fun ⟨other, pair, within⟩ => ⟨other, grown.ids _ _ pair, within⟩⟩

theorem Traces.mark (related : world.ids resolved otherResolved) (within : inside otherResolved) :
    Traces world world inside collected (collected.mark resolved) := by
  refine ⟨rfl, List.subset_cons_self _ _, fun id listed => ?_⟩
  rcases List.mem_cons.mp listed with rfl | listed
  · exact .inr ⟨otherResolved, related, within⟩
  · exact .inl listed

def CollectTraces (core : Nat) (visited : List SchemaId)
    (collect : Collected → List SchemaId → Run Collected) : Prop :=
  ∀ world inside collected ids otherIds, world.Linked core → Closed core world.right visited inside →
    visited ⊆ collected.visited → List.Forall₂ world.ids ids otherIds →
    (∀ other ∈ otherIds, ∃ resolved, inside resolved ∧ Resolves world.right other resolved) →
    Agrees core False world (collect collected ids) (pure ())
      fun result _ next => Traces world next inside collected result

/-- A branch whose counterpart is distributed or declares its fields is searched as far as that is known. -/
theorem enterBranch_traces {limit steps : Nat} {collect : Collected → List SchemaId → Run Collected}
    (collects : CollectTraces core visited collect) (linked : world.Linked core)
    (closed : Closed core world.right visited inside) (wider : visited ⊆ (collected.mark resolved).visited)
    (related : world.ids resolved otherResolved)
    (marked : Traces world world inside collected (collected.mark resolved))
    (known : (∃ union, inside union ∧ world.right.distributions.find? otherResolved = some union) ∨
      ∃ shape, Declares world.right otherResolved shape) :
    Agrees core False world (do
        match ← distributeWithin limit steps resolved with
        | some union => collect (collected.mark resolved) [union]
        | none =>
            let shape ← flattenWithin limit steps [] resolved
            return (collected.mark resolved).absorb shape) (pure ())
      fun result _ next => Traces world next inside collected result := by
  rcases known with ⟨otherUnion, union_within, known⟩ | ⟨otherShape, declares⟩
  · refine .bind_left ((distributeWithin_agrees linked related).settled
      (distributeWithin_known known 0 0).now) ?_
    rintro answer _ middle grown linked' right ⟨rfl, -, answers⟩
    cases answers with
    | some pair =>
        rw [← right] at closed
        have known' : middle.right.distributions.find? otherResolved = some otherUnion :=
          right ▸ known
        obtain ⟨_, _, _, _, _, _, _, _, node, _⟩ :=
          (linked'.right.distributions _ _ known').computed
        refine (collects middle inside _ _ _ linked' closed wider (.cons pair .nil)
          fun member listed => ?_).imp
            fun _ _ _ grown' _ traces => (marked.later grown right).trans traces grown'
        cases List.mem_singleton.mp listed
        exact ⟨_, union_within, resolves_concrete node trivial⟩
  · obtain ⟨budget, lasts⟩ := declares.undistributed.lasts core
    refine .bind_left ((distributeWithin_agrees linked related).settled
      (lasts 0 0 world.right (le_refl _) linked.right)) ?_
    rintro answer _ middle grown linked' right ⟨rfl, -, answers⟩
    cases answers with
    | none =>
        have known' : middle.right.shapes.find? otherResolved = some otherShape :=
          right ▸ declares.shape
        refine .bind_left ((flattenWithin_agrees limit steps 0 0 middle _ _ linked'
          (grown.ids _ _ related)).settled (flattenWithin_known known' 0 0 []).now) ?_
        rintro shape _ last grown' linked'' right' -
        exact .pure linked'' ((marked.later grown right).later grown' right')

theorem enter_traces {limit steps : Nat} {collect : Collected → List SchemaId → Run Collected}
    (collects : CollectTraces core visited collect) (linked : world.Linked core)
    (closed : Closed core world.right visited inside) (subset : visited ⊆ collected.visited)
    (related : world.ids resolved otherResolved) (within : inside otherResolved) :
    Agrees core False world (enter limit steps collect collected resolved) (pure ())
      fun result _ next => Traces world next inside collected result := by
  unfold enter
  by_cases met : collected.visited.contains resolved = true
  · simp only [met, if_true]
    exact .pure linked .refl
  simp only [met]
  have marked : Traces world world inside collected (collected.mark resolved) := .mark related within
  have wider : visited ⊆ (collected.mark resolved).visited := fun id listed => marked.2.1 (subset listed)
  rcases closed otherResolved within with ⟨listed, plain⟩ | ⟨otherNode, found', confined⟩
  · rcases linked.fibre _ _ related with rfl | synthetic
    · exact (met (List.elem_iff.mpr (subset listed))).elim
    · exact (plain synthetic).elim
  obtain ⟨node, _, found, found'', same⟩ := linked.nodes _ _ related
  cases found'.symm.trans found''
  refine .congr_left ?_ (bind_ok (node_apply found))
  have onward {members others : List SchemaId} (pairs : List.Forall₂ world.ids members others)
      (resolves : ∀ member ∈ others, ∃ resolved, inside resolved ∧ Resolves world.right member resolved) :
      Agrees core False world (collect (collected.mark resolved) members) (pure ())
        fun result _ next => Traces world next inside collected result :=
    (collects world inside _ _ _ linked closed wider pairs resolves).imp
      fun _ _ _ grown _ traces => marked.trans traces grown
  cases same with
  | union members => exact onward members confined
  | intersection members => exact onward members confined
  | interface _ _ _ => exact enterBranch_traces collects linked closed wider related marked confined
  | mapped _ _ => exact enterBranch_traces collects linked closed wider related marked confined
  | plain plain =>
      cases otherNode <;> first | exact plain.elim | exact .pure linked marked
  | _ => exact .pure linked marked

theorem visit_traces {limit steps : Nat} {collect : Collected → List SchemaId → Run Collected}
    (collects : CollectTraces core visited collect) (linked : world.Linked core)
    (closed : Closed core world.right visited inside) (subset : visited ⊆ collected.visited)
    (related : world.ids id other) (within : inside otherResolved)
    (resolves : Resolves world.right other otherResolved) :
    Agrees core False world (visit limit steps collect collected id) (pure ())
      fun result _ next => Traces world next inside collected result := by
  rw [visit_eq]
  refine .bind_left ((resolveWithin_agrees limit steps 0 1 world id other linked related).settled
    resolves.now) ?_
  rintro resolved _ middle grown linked' right ⟨rfl, -, pair⟩
  rw [← right] at closed
  exact (enter_traces collects linked' closed subset pair within).imp
    fun _ _ _ _ _ traces => ⟨traces.1.trans right, traces.2⟩

theorem foldVisits_traces {limit steps : Nat} {collect : Collected → List SchemaId → Run Collected}
    (collects : CollectTraces core visited collect) :
    CollectTraces core visited fun collected ids => ids.foldlM (visit limit steps collect) collected := by
  intro world inside collected ids
  induction ids generalizing world collected with
  | nil => exact fun _ linked _ _ _ _ => .pure linked .refl
  | cons id rest ih =>
      intro otherIds linked closed subset related resolves
      obtain ⟨other, otherRest, here, rest_related, rfl⟩ := List.forall₂_cons_left_iff.mp related
      obtain ⟨resolved, within, resolves'⟩ := resolves other (List.mem_cons_self ..)
      simp only [List.foldlM_cons]
      refine .bind_left (visit_traces collects linked closed subset here within resolves') ?_
      intro marked _ middle grown linked' right traces
      rw [← right] at closed resolves
      exact (ih middle marked otherRest linked' closed (fun id listed => traces.2.1 (subset listed))
        (rest_related.imp grown.ids)
        fun other listed => resolves other (List.mem_cons_of_mem _ listed)).imp
          fun _ _ _ grown' _ traces' => traces.trans traces' grown'

theorem collectWithin_traces (limit steps : Nat) :
    CollectTraces core visited (collectWithin limit steps) := by
  induction steps with
  | zero => exact fun _ _ _ _ _ _ _ _ _ _ => .out_of_steps limit
  | succ steps ih => exact foldVisits_traces ih

end Conform.Agreement
