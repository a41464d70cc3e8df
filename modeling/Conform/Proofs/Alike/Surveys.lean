import Conform.Proofs.Alike.Remembered
import Conform.Proofs.Resolver.Stable

/-! What can be reached from related nodes.  Where both states know all branches, these have their
counterparts, which declare the same fields. -/

namespace Conform.Resolver

open Run

variable {core : Nat} {ids : SchemaId → SchemaId → Prop} {left right state : ResolverState}
  {id other resolved union : SchemaId} {visited otherVisited : List SchemaId}
  {fields otherFields : ForeignFields} {shape otherShape : Shape}

/-- Two sound states in which everything that is remembered of related nodes is related. -/
structure Settled (core : Nat) (ids : SchemaId → SchemaId → Prop) (left right : ResolverState) : Prop where
  corresponds : Corresponds ids left right
  sound : left.Sound core
  otherSound : right.Sound core
  distributions : ∀ {id other union otherUnion}, ids id other →
    left.distributions.find? id = some union → right.distributions.find? other = some otherUnion →
    ids union otherUnion

theorem Likens.settled (likens : Likens ids left.arena right.arena) (sound : left.Sound core)
    (sound' : right.Sound core) : Settled core ids left right :=
  have corresponds : Corresponds ids left right := sound.history.corresponds (le_refl _) likens sound'
  ⟨corresponds, sound, sound', fun related known known' =>
    (sound.distributions _ _ known).related corresponds likens related (sound'.distributions _ _ known')⟩

namespace Settled

/-- A state beside itself. -/
theorem self (sound : state.Sound core) : Settled core Eq state state where
  corresponds :=
    { nodes := fun same found found' => by
        subst same
        cases found.symm.trans found'
        exact .refl fun _ _ => rfl
      symbols := fun found found' => Option.some.inj (found.symm.trans found')
      projections := fun same known known' => by
        subst same
        exact Option.some.inj (known.symm.trans known') }
  sound := sound
  otherSound := sound
  distributions := fun same known known' => by
    subst same
    exact Option.some.inj (known.symm.trans known')

theorem swap (settled : Settled core ids left right) : Settled core (flip ids) right left :=
  ⟨settled.corresponds.swap, settled.otherSound, settled.sound,
    fun related known known' => settled.distributions related known' known⟩

theorem shapes_related (settled : Settled core ids left right) (related : ids id other)
    (known : left.shapes.find? id = some shape) (known' : right.shapes.find? other = some otherShape) :
    Shape.Related ids shape otherShape :=
  Resolver.shapes_related settled.corresponds settled.sound.shapes settled.otherSound related known known'

/-- No union stands for a node on the left if none does on the right. -/
theorem undistributed (settled : Settled core ids left right) (related : ids id other)
    (undistributed : Undistributed left id) : right.distributions.find? other = none := by
  cases known : right.distributions.find? other with
  | none => rfl
  | some union =>
      exact (undistributed.excludes settled.corresponds related
        (settled.otherSound.distributions other union known)).elim

end Settled

/-- Everything visited is expanded, and can be reached. -/
def Explored (state : ResolverState) (visited : List SchemaId) (start : SchemaId) : Prop :=
  start ∈ visited ∧ ∀ branch ∈ visited, Expanded state visited branch ∧
    Relation.ReflTransGen (Branches state) start branch

theorem Expanded.interfaceLike {node : Node}
    (expanded : Expanded state visited id) (found : state.arena.get? id = some node)
    (like : node.isInterfaceLike = true) :
    (∃ union ∈ visited, state.distributions.find? id = some union) ∨ ∃ shape, Declares state id shape := by
  obtain ⟨node', found', known⟩ := expanded
  cases found.symm.trans found'
  cases node <;> first | exact known | cases like

theorem Expanded.member_mem {member : SchemaId} {members : List SchemaId}
    {node : Node} (expanded : Expanded state visited id) (found : state.arena.get? id = some node)
    (combines : node = .union members ∨ node = .intersection members) (listed : member ∈ members) :
    ∃ resolved ∈ visited, Resolves state member resolved := by
  obtain ⟨node', found', known⟩ := expanded
  cases found.symm.trans found'
  rcases combines with rfl | rfl <;> exact known member listed

/-- A branch that is reached on the left has its counterpart among those visited
on the right. -/
theorem Settled.reached (settled : Settled core ids left right) {start otherStart : SchemaId}
    (related : ids start otherStart) (explored : Explored right otherVisited otherStart)
    {branch : SchemaId} (path : Relation.ReflTransGen (Branches left) start branch) :
    ∃ other ∈ otherVisited, ids branch other := by
  induction path with
  | refl => exact ⟨otherStart, explored.1, related⟩
  | tail _ step ih =>
      obtain ⟨other, inside, pair⟩ := ih
      have expanded := (explored.2 other inside).1
      obtain ⟨otherNode, found', -⟩ := expanded
      have onward {member resolved : SchemaId} {others : List SchemaId}
          (combines : otherNode = .union others ∨ otherNode = .intersection others)
          (listed : ∃ otherMember ∈ others, ids member otherMember)
          (resolves : Resolves left member resolved) : ∃ other ∈ otherVisited, ids resolved other := by
        obtain ⟨otherMember, listed', pair⟩ := listed
        obtain ⟨otherResolved, inside, resolves'⟩ :=
          Expanded.member_mem (explored.2 other inside).1 found' combines listed'
        exact ⟨otherResolved, inside, Resolves.related settled.corresponds pair resolves resolves'⟩
      cases step with
      | union node listed resolves =>
          cases settled.corresponds.nodes pair node found' with
          | plain plain => exact plain.elim
          | union members => exact onward (.inl rfl) (exists_counterpart members listed) resolves
      | intersection node listed resolves =>
          cases settled.corresponds.nodes pair node found' with
          | plain plain => exact plain.elim
          | intersection members => exact onward (.inr rfl) (exists_counterpart members listed) resolves
      | distributed known =>
          obtain ⟨_, _, node⟩ := settled.sound.mapped_of_distribution known
          have like := (settled.corresponds.nodes pair node found').interfaceLike
          rcases Expanded.interfaceLike (explored.2 other inside).1 found' like.symm with
            ⟨otherUnion, inside, known'⟩ | ⟨shape, declares⟩
          · exact ⟨otherUnion, inside, settled.distributions pair known known'⟩
          · cases known.symm.trans (settled.swap.undistributed pair declares.undistributed)

/-- Every branch that is reached has been visited. -/
theorem Explored.mem_of_path {start branch : SchemaId} (explored : Explored state visited start)
    (sound : state.Sound core) (path : Relation.ReflTransGen (Branches state) start branch) :
    branch ∈ visited := by
  obtain ⟨_, listed, rfl⟩ := (Settled.self sound).reached rfl explored path
  exact listed

/-- What is declared on the left is declared on the right. -/
theorem Settled.declared (settled : Settled core ids left right) {start otherStart : SchemaId}
    (related : ids start otherStart) (explored : Explored left visited start)
    (explored' : Explored right otherVisited otherStart) {holds : Shape → Prop}
    (same : ∀ shape otherShape, shape.names = otherShape.names →
      shape.index.map (·.keyType) = otherShape.index.map (·.keyType) → holds shape → holds otherShape)
    (here : ∃ id ∈ visited, ∃ shape, Declares left id shape ∧ holds shape) :
    ∃ other ∈ otherVisited, ∃ shape, Declares right other shape ∧ holds shape := by
  obtain ⟨id, inside, shape, declares, here⟩ := here
  obtain ⟨other, inside', pair⟩ := settled.reached related explored' (explored.2 id inside).2
  obtain ⟨node, found, like⟩ := declares.interfaceLike
  obtain ⟨otherNode, found', -⟩ := (explored'.2 other inside').1
  have like' := (settled.corresponds.nodes pair found found').interfaceLike.symm.trans like
  rcases Expanded.interfaceLike (explored'.2 other inside').1 found' like' with
    ⟨union, _, known⟩ | ⟨otherShape, declares'⟩
  · cases known.symm.trans (settled.undistributed pair declares.undistributed)
  · have shapes := settled.shapes_related pair declares.shape declares'.shape
    exact ⟨other, inside', otherShape, declares', same _ _ shapes.names_eq shapes.keyType_eq here⟩

/-- Fields that gather the same are the same. -/
theorem Gathers.eq_of (gathers : Gathers left visited fields) (gathers' : Gathers right otherVisited otherFields)
    (same : ∀ {holds : Shape → Prop}, (∀ shape otherShape, shape.names = otherShape.names →
        shape.index.map (·.keyType) = otherShape.index.map (·.keyType) → holds shape → holds otherShape) →
      ((∃ id ∈ visited, ∃ shape, Declares left id shape ∧ holds shape) ↔
        ∃ other ∈ otherVisited, ∃ shape, Declares right other shape ∧ holds shape)) :
    fields = otherFields := by
  have names : fields.names = otherFields.names :=
    ForeignFields.eq_of_sorted gathers.sorted gathers'.sorted fun name =>
      (gathers.names name).trans ((same fun _ _ names _ here => names ▸ here).trans
        (gathers'.names name).symm)
  have stringKeys : fields.stringKeys = otherFields.stringKeys := Bool.eq_iff_iff.mpr
    (gathers.stringKeys.trans ((same fun _ _ _ keys here => keys ▸ here).trans gathers'.stringKeys.symm))
  have numberKeys : fields.numberKeys = otherFields.numberKeys := Bool.eq_iff_iff.mpr
    (gathers.numberKeys.trans ((same fun _ _ _ keys here => keys ▸ here).trans gathers'.numberKeys.symm))
  obtain ⟨names, stringKeys, numberKeys⟩ := fields
  simp_all only

/-- The foreign fields of related nodes are the same. -/
theorem Settled.surveys_eq (settled : Settled core ids left right) (related : ids id other)
    (surveys : Surveys left id fields) (surveys' : Surveys right other otherFields) :
    fields = otherFields := by
  obtain ⟨visited, start, resolves, inside, closed, gathers⟩ := surveys
  obtain ⟨otherVisited, otherStart, resolves', inside', closed', gathers'⟩ := surveys'
  have pair := Resolves.related settled.corresponds related resolves resolves'
  exact gathers.eq_of gathers' fun keeps =>
    ⟨settled.declared pair ⟨inside, closed⟩ ⟨inside', closed'⟩ keeps,
      settled.swap.declared pair ⟨inside', closed'⟩ ⟨inside, closed⟩ keeps⟩

end Conform.Resolver
