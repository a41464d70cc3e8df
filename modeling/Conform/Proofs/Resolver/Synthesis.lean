import Conform.Proofs.Resolver.Distributing

/-! Where nodes come from.  Resolution adds a node for an indexed access or a combinator only, and
remembers it there by the end.  Nothing was remembered there before, so no second one is added for
the same origin. -/

namespace Conform.Resolver

open Run Relation

variable {state before middle after : ResolverState} {id origin target : SchemaId}
  {combinators : List Combinator}

/-- The step from a combinator to its target. -/
def Targets (arena : Arena) (id target : SchemaId) : Prop :=
  ∃ combinator, arena.get? id = some (.mapped combinator target)

/-- The node was added for an origin of which nothing was remembered before. -/
inductive AddedFor (before after : ResolverState) (id origin : SchemaId) : Prop
  | access {object : SchemaId} {index : String}
      (node : after.arena.get? origin = some (.indexedAccess object index))
      (unknown : before.projections.find? origin = none)
      (known : after.projections.find? origin = some id)
  | union {combinator : Combinator} {target : SchemaId}
      (node : after.arena.get? origin = some (.mapped combinator target))
      (unknown : before.distributions.find? origin = none)
      (known : after.distributions.find? origin = some id)
  | stacked {combinator : Combinator} {target union top : SchemaId} {members : List SchemaId}
      (node : after.arena.get? origin = some (.mapped combinator target))
      (unknown : before.distributions.find? origin = none)
      (known : after.distributions.find? origin = some union)
      (distributed : after.arena.get? union = some (.union members)) (listed : top ∈ members)
      (below : ReflTransGen (Targets after.arena) top id)

/-- Each node that is added has an origin. -/
def Traced (before after : ResolverState) : Prop :=
  ∀ id : SchemaId, before.arena.size ≤ id.index → id.index < after.arena.size →
    ∃ origin, AddedFor before after id origin

theorem Targets.later {arena larger : Arena} (targets : Targets arena id target)
    (grown : arena ≤ larger) : Targets larger id target :=
  targets.imp fun _ found => Arena.get?_mono grown found

theorem below_later {arena larger : Arena} {top : SchemaId}
    (below : ReflTransGen (Targets arena) top id) (grown : arena ≤ larger) :
    ReflTransGen (Targets larger) top id :=
  ReflTransGen.mono (fun _ _ targets => targets.later grown) _ _ below

theorem AddedFor.later (added : AddedFor before middle id origin) (grown : middle ≤ after) :
    AddedFor before after id origin := by
  cases added with
  | access node unknown known =>
      exact .access (ResolverState.get?_later node grown) unknown
        (ResolverState.projection_later known grown)
  | union node unknown known =>
      exact .union (ResolverState.get?_later node grown) unknown
        (ResolverState.distribution_later known grown)
  | stacked node unknown known distributed listed below =>
      exact .stacked (ResolverState.get?_later node grown) unknown
        (ResolverState.distribution_later known grown)
        (ResolverState.get?_later distributed grown) listed
        (below_later below (ResolverState.arena_le grown))

/-- What is unknown later was unknown before. -/
theorem AddedFor.earlier (added : AddedFor middle after id origin) (grown : before ≤ middle) :
    AddedFor before after id origin := by
  cases added with
  | access node unknown known =>
      refine .access node ?_ known
      cases found : before.projections.find? origin with
      | none => rfl
      | some other => cases unknown.symm.trans (ResolverState.projection_later found grown)
  | union node unknown known =>
      refine .union node ?_ known
      cases found : before.distributions.find? origin with
      | none => rfl
      | some other => cases unknown.symm.trans (ResolverState.distribution_later found grown)
  | stacked node unknown known distributed listed below =>
      refine .stacked node ?_ known distributed listed below
      cases found : before.distributions.find? origin with
      | none => rfl
      | some other => cases unknown.symm.trans (ResolverState.distribution_later found grown)

theorem Traced.of_arena_eq (same : after.arena = before.arena) : Traced before after :=
  fun _ late early => (Nat.not_lt_of_le late (same ▸ early)).elim

theorem Traced.refl (state : ResolverState) : Traced state state :=
  .of_arena_eq rfl

theorem Traced.trans (first : Traced before middle) (grown : before ≤ middle)
    (second : Traced middle after) (grown' : middle ≤ after) : Traced before after := by
  intro id late early
  by_cases inside : id.index < middle.arena.size
  · exact (first id late inside).imp fun _ added => added.later grown'
  · exact (second id (Nat.le_of_not_lt inside) early).imp fun _ added => added.earlier grown

/-- The nodes that are added lie on the way from the top down to the target. -/
theorem applyCombinators_stacks (combinators : List Combinator) (target : SchemaId)
    (state : ResolverState) :
    ∃ top arena, applyCombinators combinators target state = (.ok top, { state with arena }) ∧
      state.arena ≤ arena ∧ ReflTransGen (Targets arena) top target ∧
      ∀ id : SchemaId, state.arena.size ≤ id.index → id.index < arena.size →
        ReflTransGen (Targets arena) top id := by
  induction combinators generalizing target state with
  | nil =>
      exact ⟨target, state.arena, rfl, le_refl _, .refl, fun _ late early =>
        (Nat.not_lt_of_le late early).elim⟩
  | cons combinator outer ih =>
      let added := (state.arena.alloc (.mapped combinator target)).2
      obtain ⟨top, arena, ran, grown, down, new⟩ := ih ⟨state.arena.size⟩
        { state with arena := added }
      have first : Targets arena ⟨state.arena.size⟩ target :=
        ⟨combinator, Arena.get?_mono grown (Arena.get?_alloc_self _ _)⟩
      refine ⟨top, arena, (bind_ok (alloc_apply _ _)).trans ran,
        le_trans (Arena.le_alloc _ _) grown, down.tail first, fun id late early => ?_⟩
      rcases Nat.eq_or_lt_of_le late with last | later
      · obtain rfl : id = ⟨state.arena.size⟩ := by
          cases id
          cases last
          rfl
        exact down
      · exact new id (by simpa only [added, Arena.size_alloc] using Nat.succ_le_of_lt later) early

theorem applyToEach_stacks (combinators : List Combinator) (members : List SchemaId)
    (state : ResolverState) :
    ∃ tops arena, applyToEach combinators members state = (.ok tops, { state with arena }) ∧
      state.arena ≤ arena ∧
      ∀ id : SchemaId, state.arena.size ≤ id.index → id.index < arena.size →
        ∃ top ∈ tops, ReflTransGen (Targets arena) top id := by
  induction members generalizing state with
  | nil =>
      exact ⟨[], state.arena, rfl, le_refl _, fun _ late early =>
        (Nat.not_lt_of_le late early).elim⟩
  | cons member rest ih =>
      obtain ⟨top, arena, ran, grown, -, new⟩ := applyCombinators_stacks combinators member state
      obtain ⟨tops, last, ran', grown', new'⟩ := ih { state with arena }
      refine ⟨top :: tops, last, (bind_ok ran).trans ((bind_ok ran').trans rfl),
        le_trans grown grown', fun id late early => ?_⟩
      by_cases inside : id.index < arena.size
      · exact ⟨top, List.mem_cons_self .., below_later (new id late inside) grown'⟩
      · obtain ⟨other, listed, below⟩ := new' id (Nat.le_of_not_lt inside) early
        exact ⟨other, List.mem_cons_of_mem _ listed, below⟩

/-- A first distribution adds a union and the combinators above its members. -/
theorem distributeTail_stacks {combinator : Combinator} (members : List SchemaId)
    (access : state.arena.get? id = some (.mapped combinator target))
    (unknown : state.distributions.find? id = none) :
    ∃ union after, distributeTail id combinators members state = (.ok (some union), after) ∧
      state ≤ after ∧ Traced state after := by
  obtain ⟨tops, arena, applied, grown, new⟩ := applyToEach_stacks combinators members state
  have settled : state.distributions.settle id ⟨arena.size⟩ = _ := Memo.settle_unknown unknown
  refine ⟨⟨arena.size⟩, { state with
    arena := (arena.alloc (.union tops)).2
    distributions := ⟨(id, ⟨arena.size⟩) :: state.distributions.entries⟩ }, ?_,
    ⟨le_trans grown (Arena.le_alloc _ _), le_refl _, le_refl _, le_refl _, Memo.cons_le unknown⟩, ?_⟩
  · refine (bind_ok applied).trans ((bind_ok (alloc_apply _ _)).trans ?_)
    exact congrArg (fun kept : SchemaId × Memo SchemaId =>
      ((.ok (some kept.1), { state with arena := (arena.alloc (.union tops)).2, distributions := kept.2 }) :
        Except SchemaError (Option SchemaId) × ResolverState)) settled
  have access' := Arena.get?_mono (le_trans grown (Arena.le_alloc _ (.union tops))) access
  have known : (⟨(id, ⟨arena.size⟩) :: state.distributions.entries⟩ : Memo SchemaId).find? id =
      some ⟨arena.size⟩ := by
    rw [Memo.find?_cons, if_pos rfl]
  intro other late early
  have bound : other.index < arena.size + 1 := by simpa only [Arena.size_alloc] using early
  refine ⟨id, ?_⟩
  rcases Nat.lt_or_eq_of_le (Nat.le_of_lt_succ bound) with inside | last
  · obtain ⟨top, listed, below⟩ := new other late inside
    exact .stacked access' unknown known (Arena.get?_alloc_self _ _) listed
      (below_later below (Arena.le_alloc _ _))
  · obtain rfl : other = ⟨arena.size⟩ := by
      cases other
      cases last
      rfl
    exact .union access' unknown known

end Conform.Resolver
