import Conform.Proofs.Agreement.Collecting
import Conform.Proofs.Distribution.Shapes

/-! The search for foreign fields below combinators.  It meets combinators on
members and the unions that they stand for, each behind the last, so a node that
is met again has been searched to its end: the search comes to what a walk over
all members comes to that never looks whether it has been there before. -/

namespace Conform.Distributed

open Run Resolver Agreement

variable {core limit steps floor : Nat} {before state last : ResolverState}
  {member top union : SchemaId} {members tops visited : List SchemaId}
  {combinators : List Combinator} {chain inner : CombinatorChain} {collected : Collected}
  {shape : Shape} {shapes : List Shape} {error : SchemaError}

/-- The shapes that are met behind all members. -/
def sweepAll (sweep : SchemaId → Except SchemaError (List Shape)) :
    List SchemaId → Except SchemaError (List Shape)
  | [] => .ok []
  | member :: rest => do
      let shapes ← sweep member
      let others ← sweepAll sweep rest
      return shapes ++ others

/-- The shapes that are met behind a member, under the combinators of a chain. -/
def sweepAt (last : ResolverState) : Nat → CombinatorChain → SchemaId →
    Except SchemaError (List Shape)
  | 0, _, _ => .error (.depthLimitExceeded 0)
  | fuel + 1, chain, member => do
      match ← walkAt last fuel chain member with
      | none =>
          let shape ← shapeAt last fuel chain member
          return [shape]
      | some (inner, members) => sweepAll (sweepAt last fuel inner) members

theorem sweepAt_failed (walks : Converges (walkAt last · chain member) (.error error)) :
    Converges (sweepAt last · chain member) (.error error) :=
  .of_succ (.bind_error walks)

theorem sweepAt_shape (walks : Converges (walkAt last · chain member) (.ok none))
    (flattens : Converges (shapeAt last · chain member) (.ok shape)) :
    Converges (sweepAt last · chain member) (.ok [shape]) :=
  .of_succ (.bind walks (.bind flattens (.const _)))

theorem sweepAt_shapeless (walks : Converges (walkAt last · chain member) (.ok none))
    (flattens : Converges (shapeAt last · chain member) (.error error)) :
    Converges (sweepAt last · chain member) (.error error) :=
  .of_succ (.bind walks (.bind_error flattens))

theorem sweepAt_members {swept : Except SchemaError (List Shape)}
    (walks : Converges (walkAt last · chain member) (.ok (some (inner, members))))
    (sweeps : Converges (fun fuel => sweepAll (sweepAt last fuel inner) members) swept) :
    Converges (sweepAt last · chain member) swept :=
  .of_succ (.bind walks sweeps)

section

variable {sweep : Nat → SchemaId → Except SchemaError (List Shape)} {holds : SchemaId → Shape → Prop}

theorem sweepAll_ok (each : List.Forall₂ (fun member top => ∃ shapes,
      Converges (sweep · member) (.ok shapes) ∧ ∀ shape, shape ∈ shapes ↔ holds top shape) members tops) :
    ∃ shapes, Converges (fun fuel => sweepAll (sweep fuel) members) (.ok shapes) ∧
      ∀ shape, shape ∈ shapes ↔ ∃ top ∈ tops, holds top shape := by
  induction each with
  | nil => exact ⟨[], .const _, by simp⟩
  | cons here _ ih =>
      obtain ⟨shapes, sweeps, same⟩ := here
      obtain ⟨others, sweeps', same'⟩ := ih
      refine ⟨shapes ++ others, .bind sweeps (.bind sweeps' (.const _)), fun shape => ?_⟩
      simp only [List.mem_append, same, same', List.mem_cons, exists_eq_or_imp]

theorem sweepAll_fails {done rest : List SchemaId} (each : ∀ member ∈ done, ∃ shapes,
      Converges (sweep · member) (.ok shapes)) (fails : Converges (sweep · member) (.error error)) :
    Converges (fun fuel => sweepAll (sweep fuel) (done ++ member :: rest)) (.error error) := by
  induction done with
  | nil => exact .bind_error fails
  | cons first done ih =>
      obtain ⟨shapes, sweeps⟩ := each first (List.mem_cons_self ..)
      exact .bind sweeps (.bind_error (ih fun other listed => each other (List.mem_cons_of_mem _ listed)))

end

/-- Some branch that can be reached declares the shape. -/
def Declared (last : ResolverState) (id : SchemaId) (shape : Shape) : Prop :=
  ∃ branch, Relation.ReflTransGen (Branches last) id branch ∧ Declares last branch shape

theorem declared_shape {other : Shape} (sound : last.Sound core) (declares : Declares last top shape) :
    Declared last top other ↔ other = shape := by
  constructor
  · rintro ⟨branch, path, declares'⟩
    rcases path.cases_head with rfl | ⟨next, step, -⟩
    · exact Option.some.inj (declares'.shape.symm.trans declares.shape)
    · obtain ⟨node, found, like⟩ := declares.interfaceLike
      cases step with
      | union node' _ _ | intersection node' _ _ =>
          cases found.symm.trans node'
          cases like
      | distributed known => exact (silent_of_distribution sound known shape declares).elim
  · rintro rfl
    exact ⟨top, .refl, declares⟩

theorem declared_distributed (sound : last.Sound core)
    (known : last.distributions.find? top = some union) :
    Declared last top shape ↔ Declared last union shape := by
  constructor
  · rintro ⟨branch, path, declares⟩
    rcases path.cases_head with rfl | ⟨next, step, onward⟩
    · exact (silent_of_distribution sound known shape declares).elim
    · obtain ⟨_, _, node⟩ := sound.mapped_of_distribution known
      cases step with
      | union node' _ _ | intersection node' _ _ => cases node.symm.trans node'
      | distributed known' =>
          cases known.symm.trans known'
          exact ⟨branch, onward, declares⟩
  · rintro ⟨branch, path, declares⟩
    exact ⟨branch, .head (.distributed known) path, declares⟩

theorem declared_union (sound : last.Sound core) (node : last.arena.get? union = some (.union tops))
    (concrete : ∀ top ∈ tops, Resolves last top top) :
    Declared last union shape ↔ ∃ top ∈ tops, Declared last top shape := by
  constructor
  · rintro ⟨branch, path, declares⟩
    rcases path.cases_head with rfl | ⟨next, step, onward⟩
    · exact (silent_of_node node rfl shape declares).elim
    · cases step with
      | union node' listed resolves =>
          cases node.symm.trans node'
          cases Lasts.unique resolves (concrete _ listed)
          exact ⟨next, listed, branch, onward, declares⟩
      | intersection node' _ _ => cases node.symm.trans node'
      | distributed known =>
          obtain ⟨_, _, node'⟩ := sound.mapped_of_distribution known
          cases node.symm.trans node'
  · rintro ⟨top, listed, branch, path, declares⟩
    exact ⟨branch, .head (.union node listed (concrete top listed)) path, declares⟩

/-- The tops of stacks are combinators. -/
theorem tops_concrete (stacked : List.Forall₂ (Stacked core last · combinators ·) members tops)
    (applied : combinators ≠ []) : ∀ top ∈ tops, Resolves last top top := by
  intro top listed
  obtain ⟨member, -, stack⟩ := exists_origin stacked listed
  obtain ⟨_, _, node⟩ := stack.mapped applied
  exact resolves_concrete node trivial

/-- A node that has been searched is swept without failure. -/
theorem swept (sound : last.Sound core) (marked : Marked core last visited floor none)
    (stacked : Stacked core last member combinators top) (chained : chain.toList = combinators.reverse)
    (above : floor ≤ 2 * top.index + 2) (inside : top ∈ visited) :
    ∃ shapes, Converges (sweepAt last · chain member) (.ok shapes) ∧
      ∀ shape, shape ∈ shapes ↔ Declared last top shape := by
  -- On what is left of the arena: the members of a distribution come behind its node.
  induction left : last.arena.size - top.index using Nat.strongRecOn
    generalizing top member combinators chain with
  | ind left ih =>
  have applied := CombinatorChain.applied chained
  obtain ⟨_, _, node⟩ := stacked.mapped applied
  have expanded := marked.ranked top inside _ (.mapped node) above
  rcases Expanded.interfaceLike expanded node rfl with ⟨union, union_inside, known⟩ | ⟨shape, declares⟩
  · obtain ⟨found, walks, unfolds⟩ := walkAt_known sound (le_refl _) (stacked.capped applied) chained known
    cases unfolds with
    | @some _ tops members inner union_node towers =>
        have applied : inner.toList.reverse ≠ [] := by simp [CombinatorChain.toList]
        have union_expanded := marked.ranked union union_inside _ (.union known) (by omega)
        have each : List.Forall₂ (fun member top => ∃ shapes,
            Converges (sweepAt last · inner member) (.ok shapes) ∧
              ∀ shape, shape ∈ shapes ↔ Declared last top shape) members tops := by
          refine imp_of_mem towers fun member top _ listed stack => ?_
          obtain ⟨_, behind⟩ := members_ahead sound known union_node listed
          obtain ⟨_, _, top_node⟩ := stack.mapped applied
          obtain ⟨resolved, top_inside, resolves⟩ :=
            Expanded.member_mem union_expanded union_node (.inl rfl) listed
          cases resolves.concrete top_node trivial
          have present := Arena.index_lt_size top_node
          exact ih _ (by omega) stack (by simp) (by omega) top_inside rfl
        obtain ⟨shapes, sweeps, same⟩ := sweepAll_ok each
        refine ⟨shapes, sweepAt_members walks sweeps, fun shape => ?_⟩
        rw [same, declared_distributed sound known,
          declared_union sound union_node (tops_concrete towers applied)]
  · refine ⟨[shape], sweepAt_shape (walkAt_undistributed (stacked.capped applied) chained declares.undistributed)
      (shapeAt_known sound stacked chained declares.shape), fun other => ?_⟩
    rw [List.mem_singleton, declared_shape sound declares]

end Conform.Distributed
