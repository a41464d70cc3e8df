import Conform.Proofs.Resolver.Sound

/-! Additions to a sound state.  What accounts for an entry is settled, so it
still does when nodes and entries are added; each addition only has to account
for what is new. -/

namespace Conform

namespace Resolver

open Run

variable {core : Nat} {state before after : ResolverState} {id resolved other : SchemaId}
  {shape : Shape} {fields : ForeignFields}

theorem Resolves.later (resolves : Resolves before id resolved) (grown : before ≤ after) :
    Resolves after id resolved :=
  Lasts.later resolves grown

theorem ResolvesLike.later {kind : Node → Prop} (resolves : ResolvesLike before id resolved kind)
    (grown : before ≤ after) : ResolvesLike after id resolved kind := by
  obtain ⟨leads, node, found, like⟩ := resolves
  exact ⟨leads.later grown, node, ResolverState.get?_later found grown, like⟩

/-- A longer budget gives the same answer. -/
theorem walkChain_widen {limit budget : Nat} {resolve : SchemaId → Run SchemaId}
    {chain : CombinatorChain} {target : SchemaId} {found : Option (CombinatorChain × List SchemaId)}
    (ran : walkChain limit resolve budget chain target state = (.ok found, after)) (more : Nat) :
    walkChain limit resolve (budget + more) chain target state = (.ok found, after) := by
  induction budget generalizing chain target state with
  | zero => cases ran
  | succ budget ih =>
      rw [Nat.succ_add]
      obtain ⟨resolved, middle, resolves, rest⟩ := of_bind_ok ran
      obtain ⟨node, later, reads, rest⟩ := of_bind_ok rest
      refine (bind_ok resolves).trans ((bind_ok reads).trans ?_)
      cases node with
      | mapped combinator inner => exact ih rest
      | _ => exact rest

theorem Walks.unique {budget wider : Nat} {chain : CombinatorChain} {target : SchemaId}
    {found other : Option (CombinatorChain × List SchemaId)}
    (walks : Walks state budget chain target found) (again : Walks state wider chain target other) :
    found = other := by
  have first := walkChain_widen walks.now wider
  rw [Nat.add_comm] at first
  have equal := first.symm.trans (walkChain_widen again.now budget)
  simpa using equal

theorem Undistributed.later (undistributed : Undistributed before id) (grown : before ≤ after) :
    Undistributed after id := by
  cases undistributed with
  | interface node => exact .interface (ResolverState.get?_later node grown)
  | mapped node walks =>
      exact .mapped (ResolverState.get?_later node grown) (Lasts.later walks grown)

/-- A union stands for a node or none does. -/
theorem DistributionSound.not_undistributed {union : SchemaId}
    (sound : DistributionSound core state id union) : ¬ Undistributed state id := by
  obtain ⟨combinator, target, budget, chain, members, distributed, node, walks, _⟩ := sound.computed
  intro undistributed
  cases undistributed with
  | interface node' => cases node.symm.trans node'
  | mapped node' walks' =>
      cases node.symm.trans node'
      cases walks.unique walks'

theorem Projects.later {index : String} (projects : Projects core before shape index id)
    (grown : before ≤ after) : Projects core after shape index id := by
  cases projects with
  | required declared required => exact .required declared required
  | included declared optional included => exact .included declared optional (included.later grown)
  | added declared optional missing late node =>
      exact .added declared optional (missing.later grown) late (ResolverState.get?_later node grown)
  | signature undeclared signed => exact .signature undeclared signed

theorem Tower.later {origin member top : SchemaId} {combinators : List Combinator}
    (tower : Tower core before origin combinators member top) (grown : before ≤ after) :
    Tower core after origin combinators member top := by
  induction tower with
  | base => exact .base
  | apply node late behind _ ih =>
      exact .apply (ResolverState.get?_later node grown) late behind ih

theorem Branches.later (branch : Branches before id other) (grown : before ≤ after) :
    Branches after id other := by
  cases branch with
  | union node listed resolves =>
      exact .union (ResolverState.get?_later node grown) listed (resolves.later grown)
  | intersection node listed resolves =>
      exact .intersection (ResolverState.get?_later node grown) listed (resolves.later grown)
  | distributed known => exact .distributed (ResolverState.distribution_later known grown)

theorem Declares.later (declares : Declares before id shape) (grown : before ≤ after) :
    Declares after id shape := by
  exact ⟨declares.undistributed.later grown, ResolverState.shape_later declares.shape grown⟩

theorem Expanded.later {visited : List SchemaId} (expanded : Expanded before visited id)
    (grown : before ≤ after) : Expanded after visited id := by
  obtain ⟨node, found, known⟩ := expanded
  refine ⟨node, ResolverState.get?_later found grown, ?_⟩
  cases node with
  | union members | intersection members =>
      intro member listed
      obtain ⟨resolved, inside, resolves⟩ := known member listed
      exact ⟨resolved, inside, resolves.later grown⟩
  | interface _ _ _ | mapped _ _ =>
      rcases known with ⟨union, inside, distributed⟩ | ⟨shape, declares⟩
      · exact .inl ⟨union, inside, ResolverState.distribution_later distributed grown⟩
      · exact .inr ⟨shape, declares.later grown⟩
  | _ => trivial

theorem Expanded.subset {visited wider : List SchemaId} (expanded : Expanded state visited id)
    (subset : visited ⊆ wider) : Expanded state wider id := by
  obtain ⟨node, found, known⟩ := expanded
  refine ⟨node, found, ?_⟩
  cases node with
  | union members | intersection members =>
      intro member listed
      obtain ⟨resolved, inside, resolves⟩ := known member listed
      exact ⟨resolved, subset inside, resolves⟩
  | interface _ _ _ | mapped _ _ =>
      rcases known with ⟨union, inside, distributed⟩ | declares
      · exact .inl ⟨union, subset inside, distributed⟩
      · exact .inr declares
  | _ => trivial

theorem Declares.interfaceLike (declares : Declares state id shape) :
    ∃ node, state.arena.get? id = some node ∧ node.isInterfaceLike = true := by
  cases declares.undistributed with
  | interface node | mapped node _ => exact ⟨_, node, rfl⟩

theorem Expanded.decided {visited : List SchemaId} (expanded : Expanded state visited id) :
    Decided state id := by
  obtain ⟨node, found, known⟩ := expanded
  refine ⟨node, found, fun like => ?_⟩
  cases node with
  | interface _ _ _ | mapped _ _ => exact known.imp_left fun ⟨union, _, known⟩ => ⟨union, known⟩
  | _ => cases like

theorem Decided.later (decided : Decided before id) (grown : before ≤ after) : Decided after id := by
  obtain ⟨node, found, known⟩ := decided
  refine ⟨node, ResolverState.get?_later found grown, fun like => ?_⟩
  rcases known like with ⟨union, distributed⟩ | ⟨shape, declares⟩
  · exact .inl ⟨union, ResolverState.distribution_later distributed grown⟩
  · exact .inr ⟨shape, declares.later grown⟩

/-- What a decided branch declares later it declares already. -/
theorem Decided.declares (decided : Decided before id) (grown : before ≤ after)
    (declares : Declares after id shape) (exclusive : after.distributions.find? id = none) :
    Declares before id shape := by
  obtain ⟨node, found, known⟩ := decided
  obtain ⟨node', found', like⟩ := declares.interfaceLike
  cases (ResolverState.get?_later found grown).symm.trans found'
  rcases known like with ⟨union, distributed⟩ | ⟨shape', earlier⟩
  · cases exclusive.symm.trans (ResolverState.distribution_later distributed grown)
  · cases (ResolverState.shape_later earlier.shape grown).symm.trans declares.shape
    exact earlier

theorem Gathers.later {visited : List SchemaId} (gathers : Gathers before visited fields)
    (decided : ∀ branch ∈ visited, Decided before branch) (grown : before ≤ after)
    (exclusive : ∀ id, Undistributed after id → after.distributions.find? id = none) :
    Gathers after visited fields := by
  have same (id : SchemaId) (inside : id ∈ visited) (shape : Shape) :
      Declares after id shape ↔ Declares before id shape :=
    ⟨fun declares => (decided id inside).declares grown declares
      (exclusive id declares.undistributed), fun declares => declares.later grown⟩
  refine ⟨gathers.sorted, fun name => (gathers.names name).trans ?_,
    gathers.stringKeys.trans ?_, gathers.numberKeys.trans ?_⟩
  all_goals
    constructor
    · rintro ⟨id, inside, shape, declares, holds⟩
      exact ⟨id, inside, shape, (same id inside shape).mpr declares, holds⟩
    · rintro ⟨id, inside, shape, declares, holds⟩
      exact ⟨id, inside, shape, (same id inside shape).mp declares, holds⟩

theorem Surveys.later (surveys : Surveys before id fields) (grown : before ≤ after)
    (exclusive : ∀ id, Undistributed after id → after.distributions.find? id = none) :
    Surveys after id fields := by
  obtain ⟨visited, resolved, resolves, inside, closed, gathers⟩ := surveys
  refine ⟨visited, resolved, resolves.later grown, inside, fun branch member => ?_,
    gathers.later (fun branch member => (closed branch member).1.decided) grown exclusive⟩
  exact ⟨(closed branch member).1.later grown,
    Relation.ReflTransGen.mono (fun _ _ step => Branches.later step grown) _ _
      (closed branch member).2⟩

theorem ShapeSound.later {older : List (SchemaId × Shape)}
    (sound : ShapeSound core before older id shape) (grown : before ≤ after) :
    ShapeSound core after older id shape :=
  ⟨sound.fresh, sound.computed.later grown, sound.within, sound.distinct⟩

theorem ProjectionSound.later {projected : SchemaId}
    (sound : ProjectionSound core before id projected) (grown : before ≤ after) :
    ProjectionSound core after id projected := by
  obtain ⟨object, index, target, shape, node, resolves, known, projects⟩ := sound.computed
  refine ⟨⟨object, index, target, shape, ResolverState.get?_later node grown,
    resolves.later grown, ResolverState.shape_later known grown, projects.later grown⟩, ?_⟩
  rcases sound.within with within | ⟨late, type, added⟩
  · exact .inl within
  · exact .inr ⟨late, type, ResolverState.get?_later added grown⟩

theorem DistributionSound.later {union : SchemaId}
    (sound : DistributionSound core before id union) (grown : before ≤ after) :
    DistributionSound core after id union := by
  obtain ⟨combinator, target, budget, chain, members, distributed, node, walks, added, towers⟩ :=
    sound.computed
  exact ⟨sound.behind, sound.late, combinator, target, budget, chain, members, distributed,
    ResolverState.get?_later node grown, Lasts.later walks grown,
    ResolverState.get?_later added grown, towers.imp fun _ _ tower => tower.later grown⟩

end Resolver

namespace ResolverState.Sound

open Resolver

variable {core : Nat} {state before after : ResolverState} {id : SchemaId}

theorem undistributed_unknown (sound : state.Sound core) (undistributed : Undistributed state id) :
    state.distributions.find? id = none := by
  cases known : state.distributions.find? id with
  | none => rfl
  | some union => exact ((sound.distributions id union known).not_undistributed undistributed).elim

/-- What an addition has to account for. -/
theorem grow (sound : before.Sound core) (grown : before ≤ after)
    (ordered : ∀ id node, after.arena.get? id = some node → before.arena.get? id = some node ∨
      ∀ child ∈ node.children, child.index < id.index)
    (shapes : ∀ older id shape, (id, shape) :: older <:+ after.shapes.entries →
      (id, shape) :: older <:+ before.shapes.entries ∨ ShapeSound core after older id shape)
    (projections : ∀ id projected, after.projections.find? id = some projected →
      before.projections.find? id = some projected ∨ ProjectionSound core after id projected)
    (distributions : ∀ id union, after.distributions.find? id = some union →
      before.distributions.find? id = some union ∨ DistributionSound core after id union)
    (injective : ∀ id other union, after.distributions.find? id = some union →
      after.distributions.find? other = some union → id = other)
    (foreign : ∀ id fields, after.foreign.find? id = some fields →
      before.foreign.find? id = some fields ∨ Surveys after id fields)
    (history : History core after) : after.Sound core := by
  have distributed (id union : SchemaId) (known : after.distributions.find? id = some union) :
      DistributionSound core after id union := by
    rcases distributions id union known with earlier | accounted
    · exact (sound.distributions id union earlier).later grown
    · exact accounted
  have exclusive (id : SchemaId) (undistributed : Undistributed after id) :
      after.distributions.find? id = none := by
    cases known : after.distributions.find? id with
    | none => rfl
    | some union => exact ((distributed id union known).not_undistributed undistributed).elim
  refine
    { ordered := fun id node found => ?_
      symbols := fun path symbol id found => ?_
      undefined := get?_later sound.undefined grown
      undefined_core := sound.undefined_core
      core_le := Nat.le_trans sound.core_le (Arena.size_mono (arena_le grown))
      shapes := fun older id shape entry => ?_
      projections := fun id projected known => ?_
      distributions := distributed
      distributions_injective := injective
      foreign := fun id fields known => ?_
      history := history }
  · rcases ordered id node found with earlier | accounted
    · exact sound.ordered id node earlier
    · exact accounted
  · rw [Arena.symbol?_mono (arena_le grown)] at found
    exact sound.symbols path symbol id found
  · rcases shapes older id shape entry with earlier | accounted
    · exact (sound.shapes older id shape earlier).later grown
    · exact accounted
  · rcases projections id projected known with earlier | accounted
    · exact (sound.projections id projected earlier).later grown
    · exact accounted
  · rcases foreign id fields known with earlier | accounted
    · exact (sound.foreign id fields earlier).later grown exclusive
    · exact accounted

/-- A state with other nodes and the same memos. -/
theorem grow_arena (sound : state.Sound core) {arena : Arena} (grown : state.arena ≤ arena)
    (ordered : ∀ id node, arena.get? id = some node → state.arena.get? id = some node ∨
      ∀ child ∈ node.children, child.index < id.index) :
    ResolverState.Sound core { state with arena } :=
  have larger : state ≤ { state with arena } := ⟨grown, le_refl _, le_refl _, le_refl _, le_refl _⟩
  sound.grow larger ordered (fun _ _ _ entry => .inl entry) (fun _ _ known => .inl known)
    (fun _ _ known => .inl known) sound.distributions_injective (fun _ _ known => .inl known)
    (sound.history.grow larger rfl)

theorem alloc (sound : state.Sound core) {node : Node}
    (issued : ∀ child ∈ node.children, child.index < state.arena.size) :
    ResolverState.Sound core { state with arena := (state.arena.alloc node).2 } := by
  refine sound.grow_arena (Arena.le_alloc _ _) fun id found known => ?_
  rcases Arena.get?_alloc_cases known with earlier | ⟨rfl, rfl⟩
  · exact .inl earlier
  · exact .inr issued

theorem keepShape (sound : state.Sound core) {shape : Shape}
    (accounted : state.shapes.find? id = none →
      ShapeSound core state state.shapes.entries id shape) :
    ResolverState.Sound core { state with shapes := (state.shapes.settle id shape).2 } := by
  have grown : state ≤ { state with shapes := (state.shapes.settle id shape).2 } :=
    ⟨le_refl _, Memo.le_settle _ _ _, le_refl _, le_refl _, le_refl _⟩
  refine sound.grow grown (fun _ _ found => .inl found) (fun older key kept entry => ?_)
    (fun _ _ known => .inl known) (fun _ _ known => .inl known)
    sound.distributions_injective (fun _ _ known => .inl known) (sound.history.grow grown rfl)
  cases known : state.shapes.find? id with
  | some earlier =>
      simp only [Memo.settle_known known] at entry
      exact .inl entry
  | none =>
      have added : (state.shapes.settle id shape).2.entries = (id, shape) :: state.shapes.entries := by
        rw [Memo.settle_unknown known]
      change (key, kept) :: older <:+ (state.shapes.settle id shape).2.entries at entry
      rw [added] at entry
      rcases List.suffix_cons_iff.mp entry with whole | earlier
      · cases whole
        exact .inr ((accounted known).later grown)
      · exact .inl earlier

theorem keepProjection (sound : state.Sound core) {projected : SchemaId}
    (accounted : state.projections.find? id = none → ProjectionSound core state id projected) :
    ResolverState.Sound core
      { state with projections := (state.projections.settle id projected).2 } := by
  have grown : state ≤ { state with projections := (state.projections.settle id projected).2 } :=
    ⟨le_refl _, le_refl _, le_refl _, Memo.le_settle _ _ _, le_refl _⟩
  refine sound.grow grown (fun _ _ found => .inl found) (fun _ _ _ entry => .inl entry)
    (fun key kept known => ?_) (fun _ _ known => .inl known)
    sound.distributions_injective (fun _ _ known => .inl known) ?_
  · rcases Memo.find?_settle_cases known with earlier | ⟨rfl, rfl, unknown⟩
    · exact .inl earlier
    · exact .inr ((accounted unknown).later grown)
  · cases known : state.projections.find? id with
    | some earlier =>
        rw [Memo.settle_known known]
        exact sound.history
    | none => exact sound.history.keep sound.shapes (accounted known)

theorem keepDistribution (sound : state.Sound core) {union : SchemaId}
    (accounted : DistributionSound core state id union)
    (fresh : ∀ other, state.distributions.find? other ≠ some union) :
    ResolverState.Sound core
      { state with distributions := (state.distributions.settle id union).2 } := by
  have grown : state ≤ { state with distributions := (state.distributions.settle id union).2 } :=
    ⟨le_refl _, le_refl _, le_refl _, le_refl _, Memo.le_settle _ _ _⟩
  refine sound.grow grown (fun _ _ found => .inl found) (fun _ _ _ entry => .inl entry)
    (fun _ _ known => .inl known) (fun key kept known => ?_) (fun key other kept known same => ?_)
    (fun _ _ known => .inl known) (sound.history.grow grown rfl)
  · rcases Memo.find?_settle_cases known with earlier | ⟨rfl, rfl, _⟩
    · exact .inl earlier
    · exact .inr (accounted.later grown)
  · rcases Memo.find?_settle_cases known with earlier | ⟨atId, isUnion, _⟩ <;>
      rcases Memo.find?_settle_cases same with earlier' | ⟨atId', isUnion', _⟩
    · exact sound.distributions_injective key other kept earlier earlier'
    · exact (fresh key (isUnion' ▸ earlier)).elim
    · exact (fresh other (isUnion ▸ earlier')).elim
    · exact atId.trans atId'.symm

theorem keepForeign (sound : state.Sound core) {fields : ForeignFields}
    (accounted : Surveys state id fields) :
    ResolverState.Sound core { state with foreign := (state.foreign.settle id fields).2 } := by
  have grown : state ≤ { state with foreign := (state.foreign.settle id fields).2 } :=
    ⟨le_refl _, le_refl _, Memo.le_settle _ _ _, le_refl _, le_refl _⟩
  refine sound.grow grown (fun _ _ found => .inl found) (fun _ _ _ entry => .inl entry)
    (fun _ _ known => .inl known) (fun _ _ known => .inl known)
    sound.distributions_injective (fun key kept known => ?_) (sound.history.grow grown rfl)
  rcases Memo.find?_settle_cases known with earlier | ⟨rfl, rfl, _⟩
  · exact .inl earlier
  · refine .inr (accounted.later grown fun other undistributed => ?_)
    cases known : state.distributions.find? other with
    | none => rfl
    | some union =>
        exact (((sound.distributions other union known).later grown).not_undistributed
          undistributed).elim

end ResolverState.Sound

end Conform
