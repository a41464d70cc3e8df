import Conform.Proofs.Alike.Surveys

/-! Two states side by side.  The right one remembers at least what the left one
does, and every identity on the left has its counterpart on the right.  Several
on the left can have the same one, but only for a node that resolution adds: the
left state adds it again where the right one remembers it. -/

namespace Conform

namespace Agreement

open Run Resolver

structure World where
  left : ResolverState
  right : ResolverState
  ids : SchemaId → SchemaId → Prop

/-- A node as resolution adds them: a combinator, a union with `undefined`, or
the union that stands for a combinator. -/
structure Synthetic (core : Nat) (state : ResolverState) (id : SchemaId) : Prop where
  late : core ≤ id.index
  added : ∃ node, state.arena.get? id = some node ∧
    (node.IsMapped ∨ (∃ type, node = .union [type, Arena.undefined]) ∨
      ∃ origin, state.distributions.find? origin = some id)

variable {core : Nat} {world next : World} {before after : ResolverState}
  {id other third : SchemaId}

theorem Synthetic.later (synthetic : Synthetic core before id) (grown : before ≤ after) :
    Synthetic core after id := by
  obtain ⟨node, found, added⟩ := synthetic.added
  refine ⟨synthetic.late, node, ResolverState.get?_later found grown, added.imp_right ?_⟩
  exact Or.imp_right fun ⟨origin, known⟩ => ⟨origin, ResolverState.distribution_later known grown⟩

structure World.Linked (core : Nat) (world : World) : Prop where
  left : world.left.Sound core
  right : world.right.Sound core
  symbols : world.right.arena.symbols = world.left.arena.symbols
  early : ∀ id, id.index < core → world.ids id id
  total : ∀ id, id.index < world.left.arena.size → ∃ other, world.ids id other
  nodes : ∀ id other, world.ids id other → ∃ node otherNode,
    world.left.arena.get? id = some node ∧ world.right.arena.get? other = some otherNode ∧
      Node.Related world.ids node otherNode
  functional : ∀ id other third, world.ids id other → world.ids id third → other = third
  fibre : ∀ id other, world.ids id other → id = other ∨ Synthetic core world.right other
  shapes : ∀ id other shape, world.ids id other → world.left.shapes.find? id = some shape →
    ∃ otherShape, world.right.shapes.find? other = some otherShape
  projections : ∀ id other projected, world.ids id other →
    world.left.projections.find? id = some projected →
    ∃ otherProjected, world.right.projections.find? other = some otherProjected ∧
      world.ids projected otherProjected
  distributions : ∀ id other union, world.ids id other →
    world.left.distributions.find? id = some union →
    ∃ otherUnion, world.right.distributions.find? other = some otherUnion ∧
      world.ids union otherUnion
  foreign : ∀ id other fields, world.ids id other → world.left.foreign.find? id = some fields →
    world.right.foreign.find? other = some fields

/-- A world later on.  Where the right state has learned a shape, so has the left
one. -/
structure World.Extends (world next : World) : Prop where
  left : world.left ≤ next.left
  right : world.right ≤ next.right
  ids : ∀ id other, world.ids id other → next.ids id other
  tracked : ∀ other otherShape, next.right.shapes.find? other = some otherShape →
    (∃ earlier, world.right.shapes.find? other = some earlier) ∨
      ∃ id shape, next.ids id other ∧ next.left.shapes.find? id = some shape

theorem World.Extends.refl (world : World) : world.Extends world :=
  ⟨le_refl _, le_refl _, fun _ _ related => related, fun _ shape known => .inl ⟨shape, known⟩⟩

theorem World.Extends.trans {last : World} (first : world.Extends next)
    (second : next.Extends last) : world.Extends last := by
  refine ⟨le_trans first.left second.left, le_trans first.right second.right,
    fun id other related => second.ids id other (first.ids id other related),
    fun other shape known => ?_⟩
  rcases second.tracked other shape known with ⟨earlier, found⟩ | learned
  · rcases first.tracked other earlier found with earliest | ⟨id, shape, related, found⟩
    · exact .inl earliest
    · exact .inr ⟨id, shape, second.ids _ _ related, ResolverState.shape_later found second.left⟩
  · exact .inr learned

/-- Nothing is learned on the right. -/
theorem World.Extends.of_right (left : world.left ≤ next.left) (right : next.right = world.right)
    (ids : ∀ id other, world.ids id other → next.ids id other) : world.Extends next :=
  ⟨left, right ▸ le_refl _, ids, fun _ shape known => .inl ⟨shape, right ▸ known⟩⟩

theorem resolve_present {limit steps : Nat} {resolved : SchemaId} {state : ResolverState}
    (ran : resolveWithin limit steps id state = (.ok resolved, after)) :
    id.index < state.arena.size := by
  cases steps with
  | zero => cases ran
  | succ steps =>
      cases found : state.arena.get? id with
      | some node => exact Arena.index_lt_size found
      | none =>
          rw [resolveWithin_succ] at ran
          cases size : state.arena.size with
          | zero =>
              rw [size] at ran
              obtain ⟨_, _, reads, _⟩ := Run.of_bind_ok ran
              rw [Run.node_missing found] at reads
              cases reads
          | succ hops =>
              rw [size, follow_unmet (by simp)] at ran
              obtain ⟨_, _, hopped, _⟩ := Run.of_bind_ok ran
              obtain ⟨_, _, reads, _⟩ := Run.of_bind_ok hopped
              rw [Run.node_missing found] at reads
              cases reads

theorem projection_present {state : ResolverState} (sound : state.Sound core) {projected : SchemaId}
    (known : state.projections.find? id = some projected) : id.index < state.arena.size := by
  obtain ⟨_, _, _, _, node, _⟩ := (sound.projections id projected known).computed
  exact Arena.index_lt_size node

theorem origin_present {state : ResolverState} (sound : state.Sound core) {union : SchemaId}
    (known : state.distributions.find? id = some union) : id.index < state.arena.size := by
  obtain ⟨_, _, node⟩ := sound.mapped_of_distribution known
  exact Arena.index_lt_size node

theorem foreign_present {state : ResolverState} (sound : state.Sound core) {fields : ForeignFields}
    (known : state.foreign.find? id = some fields) : id.index < state.arena.size := by
  obtain ⟨_, _, resolves, _⟩ := sound.foreign id fields known
  exact resolve_present resolves.now

namespace World.Linked

theorem present (linked : world.Linked core) (related : world.ids id other) :
    id.index < world.left.arena.size := by
  obtain ⟨_, _, found, _⟩ := linked.nodes id other related
  exact Arena.index_lt_size found

/-- What is settled on both sides is related. -/
theorem settled (linked : world.Linked core) : Settled core world.ids world.left world.right where
  corresponds :=
    { nodes := fun related found found' => by
        obtain ⟨_, _, here, there, same⟩ := linked.nodes _ _ related
        cases here.symm.trans found
        cases there.symm.trans found'
        exact same
      symbols := fun {path symbol id other} found found' => by
        simp only [Arena.symbol?, linked.symbols] at found found'
        cases found.symm.trans found'
        exact linked.early id (linked.left.symbols path symbol id found)
      projections := fun related known known' => by
        obtain ⟨_, learned, pair⟩ := linked.projections _ _ _ related known
        cases learned.symm.trans known'
        exact pair }
  sound := linked.left
  otherSound := linked.right
  distributions := fun related known known' => by
    obtain ⟨_, learned, pair⟩ := linked.distributions _ _ _ related known
    cases learned.symm.trans known'
    exact pair

/-- Both states learn; what the left one learns is on the right already. -/
theorem grow (linked : world.Linked core) {left right : ResolverState} (grown : world.left ≤ left)
    (grown' : world.right ≤ right) (sound : left.Sound core) (sound' : right.Sound core)
    (arena : left.arena = world.left.arena)
    (shapes : ∀ id other shape, world.ids id other → left.shapes.find? id = some shape →
      (∃ earlier, world.left.shapes.find? id = some earlier) ∨
        ∃ otherShape, right.shapes.find? other = some otherShape)
    (projections : ∀ id other projected, world.ids id other →
      left.projections.find? id = some projected →
      world.left.projections.find? id = some projected ∨
        ∃ otherProjected, right.projections.find? other = some otherProjected ∧
          world.ids projected otherProjected)
    (distributions : ∀ id other union, world.ids id other →
      left.distributions.find? id = some union →
      world.left.distributions.find? id = some union ∨
        ∃ otherUnion, right.distributions.find? other = some otherUnion ∧
          world.ids union otherUnion)
    (foreign : ∀ id other fields, world.ids id other → left.foreign.find? id = some fields →
      world.left.foreign.find? id = some fields ∨ right.foreign.find? other = some fields) :
    World.Linked core ⟨left, right, world.ids⟩ := by
  refine
    { left := sound
      right := sound'
      symbols := ?_
      early := linked.early
      total := fun id present => linked.total id (by rwa [arena] at present)
      nodes := fun id other related => ?_
      functional := linked.functional
      fibre := fun id other related => (linked.fibre id other related).imp_right (·.later grown')
      shapes := fun id other shape related known => ?_
      projections := fun id other projected related known => ?_
      distributions := fun id other union related known => ?_
      foreign := fun id other fields related known => ?_ }
  · change right.arena.symbols = left.arena.symbols
    rw [arena, ← linked.symbols]
    exact Arena.symbols_eq (ResolverState.arena_le grown')
  · obtain ⟨node, otherNode, found, found', same⟩ := linked.nodes id other related
    exact ⟨node, otherNode, ResolverState.get?_later found grown,
      ResolverState.get?_later found' grown', same⟩
  · rcases shapes id other shape related known with ⟨earlier, found⟩ | learned
    · obtain ⟨otherShape, found'⟩ := linked.shapes id other earlier related found
      exact ⟨otherShape, ResolverState.shape_later found' grown'⟩
    · exact learned
  · rcases projections id other projected related known with found | learned
    · obtain ⟨otherProjected, found', same⟩ := linked.projections id other projected related found
      exact ⟨otherProjected, ResolverState.projection_later found' grown', same⟩
    · exact learned
  · rcases distributions id other union related known with found | learned
    · obtain ⟨otherUnion, found', same⟩ := linked.distributions id other union related found
      exact ⟨otherUnion, ResolverState.distribution_later found' grown', same⟩
    · exact learned
  · rcases foreign id other fields related known with found | learned
    · exact ResolverState.foreign_later (linked.foreign id other fields related found) grown'
    · exact learned

theorem grow_right (linked : world.Linked core) {right : ResolverState} (grown : world.right ≤ right)
    (sound : right.Sound core) : World.Linked core ⟨world.left, right, world.ids⟩ :=
  linked.grow (le_refl _) grown linked.left sound rfl (fun _ _ shape _ known => .inl ⟨shape, known⟩)
    (fun _ _ _ _ known => .inl known) (fun _ _ _ _ known => .inl known)
    (fun _ _ _ _ known => .inl known)

end World.Linked

def World.withLeft (world : World) (left : ResolverState) : World :=
  { world with left }

/-- The left state adds a node for which the right one has one. -/
def World.alloc (world : World) (node : Node) (other : SchemaId) : World :=
  { world with
    left := { world.left with arena := (world.left.arena.alloc node).2 }
    ids := fun id third => world.ids id third ∨ id = ⟨world.left.arena.size⟩ ∧ third = other }

theorem World.extends_alloc (world : World) (node : Node) (other : SchemaId) :
    world.Extends (world.alloc node other) :=
  .of_right (le_alloc node world.left) rfl fun _ _ related => .inl related

theorem World.Linked.alloc (linked : world.Linked core) {node otherNode : Node}
    (found : world.right.arena.get? other = some otherNode)
    (related : Node.Related world.ids node otherNode)
    (issued : ∀ child ∈ node.children, child.index < world.left.arena.size)
    (synthetic : Synthetic core world.right other) : (world.alloc node other).Linked core := by
  have grown := le_alloc node world.left
  have fresh {third : SchemaId} (present : third.index < world.left.arena.size) :
      third ≠ ⟨world.left.arena.size⟩ := fun same => by
    rw [same] at present
    exact Nat.lt_irrefl _ present
  refine
    { left := linked.left.alloc issued
      right := linked.right
      symbols := linked.symbols
      early := fun id early => .inl (linked.early id early)
      total := fun id present => ?_
      nodes := fun id third pair => ?_
      functional := fun id first second pair again => ?_
      fibre := fun id third pair => ?_
      shapes := fun id third shape pair known => ?_
      projections := fun id third projected pair known => ?_
      distributions := fun id third union pair known => ?_
      foreign := fun id third fields pair known => ?_ }
  · change id.index < (world.left.arena.alloc node).2.size at present
    rw [Arena.size_alloc] at present
    rcases Nat.lt_succ_iff_lt_or_eq.mp present with inside | last
    · exact (linked.total id inside).imp fun third pair => .inl pair
    · exact ⟨other, .inr ⟨by rw [← last], rfl⟩⟩
  · rcases pair with pair | ⟨rfl, rfl⟩
    · obtain ⟨node, otherNode, here, there, same⟩ := linked.nodes id third pair
      exact ⟨node, otherNode, ResolverState.get?_later here grown, there,
        same.imp fun _ _ pair => .inl pair⟩
    · exact ⟨node, otherNode, Arena.get?_alloc_self _ _, found, related.imp fun _ _ pair => .inl pair⟩
  · rcases pair with pair | ⟨rfl, rfl⟩ <;> rcases again with again | ⟨isNew, rfl⟩
    · exact linked.functional id first second pair again
    · exact (fresh (linked.present pair) isNew).elim
    · exact (fresh (linked.present again) rfl).elim
    · rfl
  · rcases pair with pair | ⟨rfl, rfl⟩
    · exact linked.fibre id third pair
    · exact .inr synthetic
  · rcases pair with pair | ⟨rfl, rfl⟩
    · exact linked.shapes id third shape pair known
    · exact (fresh (shape_present linked.left known) rfl).elim
  · rcases pair with pair | ⟨rfl, rfl⟩
    · obtain ⟨otherProjected, known', same⟩ := linked.projections id third projected pair known
      exact ⟨otherProjected, known', .inl same⟩
    · exact (fresh (projection_present linked.left known) rfl).elim
  · rcases pair with pair | ⟨rfl, rfl⟩
    · obtain ⟨otherUnion, known', same⟩ := linked.distributions id third union pair known
      exact ⟨otherUnion, known', .inl same⟩
    · exact (fresh (origin_present linked.left known) rfl).elim
  · rcases pair with pair | ⟨rfl, rfl⟩
    · exact linked.foreign id third fields pair known
    · exact (fresh (foreign_present linked.left known) rfl).elim

end Agreement

end Conform
