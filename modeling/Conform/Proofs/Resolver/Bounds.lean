import Conform.Proofs.Resolver.Additions

/-! What resolution and flattening keep of a state.  Shapes become known only below
the node that is asked for, which rules out that a node waits for its own shape. -/

namespace Conform.Resolver

open Run

variable {core bound : Nat} {state before middle after : ResolverState}
  {id target resolved : SchemaId} {shape : Shape}

structure Resolving (core : Nat) (before after : ResolverState) : Prop where
  grown : before ≤ after
  sound : after.Sound core
  distributions : after.distributions = before.distributions
  added : ∀ id node, after.arena.get? id = some node →
    before.arena.get? id = some node ∨ node.IsUnion

theorem Resolving.refl (sound : state.Sound core) : Resolving core state state :=
  ⟨le_refl _, sound, rfl, fun _ _ found => .inl found⟩

theorem Resolving.trans (first : Resolving core before middle)
    (second : Resolving core middle after) : Resolving core before after := by
  refine ⟨le_trans first.grown second.grown, second.sound,
    second.distributions.trans first.distributions,
    fun id node found => ?_⟩
  rcases second.added id node found with earlier | union
  · exact first.added id node earlier
  · exact .inr union

/-- Shapes have become known only in the core and below a bound. -/
def Bounded (core bound : Nat) (before after : ResolverState) : Prop :=
  ∀ id shape, after.shapes.find? id = some shape →
    (∃ earlier, before.shapes.find? id = some earlier) ∨ id.Within core bound

theorem Bounded.refl : Bounded core bound state state :=
  fun _ shape known => .inl ⟨shape, known⟩

theorem Bounded.of_shapes_eq (same : after.shapes = before.shapes) :
    Bounded core bound before after :=
  fun _ shape known => .inl ⟨shape, same ▸ known⟩

theorem Bounded.trans (first : Bounded core bound before middle)
    (second : Bounded core bound middle after) : Bounded core bound before after := by
  intro id shape known
  rcases second id shape known with ⟨earlier, found⟩ | within
  · exact first id earlier found
  · exact .inr within

theorem Bounded.widen {wider : Nat} (bounded : Bounded core bound before after)
    (wide : bound ≤ wider ∨ bound ≤ core) : Bounded core wider before after := by
  intro id shape known
  rcases bounded id shape known with earlier | core | below
  · exact .inl earlier
  · exact .inr (.inl core)
  · rcases wide with wide | wide
    · exact .inr (.inr (Nat.lt_of_lt_of_le below wide))
    · exact .inr (.inl (Nat.lt_of_lt_of_le below wide))

/-- A chain from below a bound ends at a union, in the core or below the bound. -/
def Leads (core bound : Nat) (state : ResolverState) (resolved : SchemaId) : Prop :=
  ∃ node, state.arena.get? resolved = some node ∧ node.IsConcrete ∧
    (node.IsUnion ∨ resolved.Within core bound)

def ResolveMeets (core : Nat) (resolve : SchemaId → Run SchemaId) : Prop :=
  ∀ id state, state.Sound core →
    Meets (resolve id) state (Resolving core state) fun resolved after =>
      Resolves after id resolved ∧ Leads core (id.index + 1) after resolved ∧
        Bounded core id.index state after

def FlattenMeets (core : Nat) (flatten : SchemaId → Run Shape) : Prop :=
  ∀ id state, state.Sound core →
    Meets (flatten id) state (Resolving core state) fun shape after =>
      after.shapes.find? id = some shape ∧ Bounded core (id.index + 1) state after

def ProjectMeets (core : Nat) (project : SchemaId → SchemaId → String → Run SchemaId) : Prop :=
  ∀ id object index state, state.Sound core →
    state.arena.get? id = some (.indexedAccess object index) →
    Meets (project id object index) state (Resolving core state) fun projected after =>
      after.projections.find? id = some projected ∧ Bounded core id.index state after

theorem Within.index_lt {size : Nat} (within : id.Within core bound) (core_le : core ≤ size)
    (bound_le : bound ≤ size) : id.index < size := by
  rcases within with early | early <;> omega

theorem Within.widen {wider : Nat} (within : id.Within core bound)
    (wide : bound ≤ wider ∨ bound ≤ core) : id.Within core wider := by
  rcases within with early | early
  · exact .inl early
  · rcases wide with wide | wide
    · exact .inr (Nat.lt_of_lt_of_le early wide)
    · exact .inl (Nat.lt_of_lt_of_le early wide)

theorem exists_node_of_flattenNode {resolve : SchemaId → Run SchemaId}
    {flatten : SchemaId → Run Shape} (ran : flattenNode resolve flatten id state = (.ok shape, after)) :
    ∃ node, state.arena.get? id = some node := by
  cases found : state.arena.get? id with
  | some node => exact ⟨node, rfl⟩
  | none =>
      obtain ⟨node, middle, reads, -⟩ := of_bind_ok ran
      rw [node_missing found] at reads
      cases reads

theorem shape_sound (sound : state.Sound core) (known : state.shapes.find? id = some shape) :
    ∃ older, (id, shape) :: older <:+ state.shapes.entries ∧ ShapeSound core state older id shape := by
  obtain ⟨older, entry⟩ := Memo.exists_older known
  exact ⟨older, entry, sound.shapes older id shape entry⟩

/-- An entry among the older ones is what is found among all. -/
theorem shape_of_suffix (sound : state.Sound core) {older : List (SchemaId × Shape)}
    (suffix : older <:+ state.shapes.entries)
    (known : older.lookup id = some shape) : state.shapes.find? id = some shape := by
  obtain ⟨newer, whole⟩ := suffix
  have found : ∀ newer, newer ++ older <:+ state.shapes.entries →
      (newer ++ older).lookup id = some shape := by
    intro newer
    induction newer with
    | nil => exact fun _ => known
    | cons entry rest ih =>
        obtain ⟨key, kept⟩ := entry
        intro suffix
        have earlier := ih ((List.suffix_cons _ _).trans suffix)
        have fresh : (rest ++ older).lookup key = none := (sound.shapes _ _ _ suffix).fresh
        have differ : (id == key) = false := by
          rw [beq_eq_false_iff_ne]
          intro same
          rw [same, fresh] at earlier
          cases earlier
        simpa only [List.cons_append, List.lookup_cons, differ] using earlier
  have all := found newer (whole ▸ List.suffix_refl _)
  rwa [whole] at all

theorem shape_within (sound : state.Sound core) (known : state.shapes.find? id = some shape) :
    ∀ type ∈ shape.types, type.Within core id.index := by
  obtain ⟨older, -, accounted⟩ := shape_sound sound known
  exact accounted.within

theorem shape_present (sound : state.Sound core) (known : state.shapes.find? id = some shape) :
    id.index < state.arena.size := by
  obtain ⟨older, -, accounted⟩ := shape_sound sound known
  obtain ⟨node, found⟩ := exists_node_of_flattenNode accounted.computed.now
  exact Arena.index_lt_size found

theorem shape_issued (sound : state.Sound core) (known : state.shapes.find? id = some shape) :
    ∀ type ∈ shape.types, type.index < state.arena.size := fun type listed =>
  Within.index_lt (shape_within sound known type listed) sound.core_le
    (Nat.le_of_lt (shape_present sound known))

theorem Leads.interfaceLike {node : Node} (leads : Leads core bound state resolved)
    (found : state.arena.get? resolved = some node) (like : node.isInterfaceLike = true) :
    resolved.Within core bound := by
  obtain ⟨other, found', -, union | within⟩ := leads
  · cases found.symm.trans found'
    cases node <;> simp [Node.isInterfaceLike, Node.IsUnion] at like union
  · exact within

/-- What leads on from the object of an indexed access stays below the access. -/
theorem Leads.place {object : SchemaId} {node : Node} (leads : Leads core (object.index + 1) state target)
    (found : state.arena.get? target = some node) (like : node.isInterfaceLike = true)
    (inner : object.index < id.index) : target.index ≤ core ∨ target.index ≤ id.index :=
  (leads.interfaceLike found like).imp Nat.le_of_lt fun below => by omega

/-- Whatever the node leads to from here on is within the bound, if it may have a shape. -/
def LeadsWithin (core bound : Nat) (state : ResolverState) (target : SchemaId) : Prop :=
  ∀ after resolved node, state ≤ after → Leads core (target.index + 1) after resolved →
    after.arena.get? resolved = some node → node.isInterfaceLike = true → resolved.Within core bound

theorem LeadsWithin.of_early (early : target.index < bound) (state : ResolverState) :
    LeadsWithin core bound state target :=
  fun _ _ _ _ leads found like => Within.widen (leads.interfaceLike found like) (.inl early)

/-- A reference or an access does not lead to itself, so what it leads to is before it. -/
theorem LeadsWithin.of_link {link : Node} (here : state.arena.get? id = some link)
    (open_ : ¬ link.IsConcrete) : LeadsWithin core id.index state id := by
  intro after resolved node grown leads there like
  refine (leads.interfaceLike there like).imp_right fun behind => ?_
  refine Nat.lt_of_le_of_ne (Nat.le_of_lt_succ behind) fun index => open_ ?_
  have self : resolved = id := by
    cases resolved
    exact congrArg SchemaId.mk index
  subst self
  cases (ResolverState.get?_later here grown).symm.trans there
  cases link <;> trivial

end Conform.Resolver
