import Conform.Proofs.Agreement.Agrees

/-! Projections side by side.  Where the right state remembers a projection, the
left run is compared with what accounts for it; where it does not, the right run
comes first and the left one is compared with its result. -/

namespace Conform.Agreement

open Run Resolver

variable {core : Nat} {excuse : Prop} {world : World} {id other type otherType : SchemaId}
  {shape otherShape : Shape} {index : String}

def ResolveAgrees (core : Nat) (excuse : Prop) (resolve resolveOther : SchemaId → Run SchemaId) :
    Prop :=
  ∀ world id other, world.Linked core → world.ids id other →
    Agrees core excuse world (resolve id) (resolveOther other) fun resolved otherResolved next =>
      next.ids resolved otherResolved

def FlattenAgrees (core : Nat) (excuse : Prop) (flatten flattenOther : SchemaId → Run Shape) : Prop :=
  ∀ world id other, world.Linked core → world.ids id other →
    Agrees core excuse world (flatten id) (flattenOther other) fun shape otherShape next =>
      Shape.Related next.ids shape otherShape

def ProjectAgrees (core : Nat) (excuse : Prop)
    (project projectOther : SchemaId → SchemaId → String → Run SchemaId) : Prop :=
  ∀ world id other object otherObject index, world.Linked core → world.ids id other →
    world.left.arena.get? id = some (.indexedAccess object index) →
    world.right.arena.get? other = some (.indexedAccess otherObject index) →
    world.ids object otherObject →
    Agrees core excuse world (project id object index) (projectOther other otherObject index)
      fun projected otherProjected next => next.ids projected otherProjected

theorem lookupTarget_agrees (linked : world.Linked core) (target : String) :
    Agrees core excuse world (lookupTarget target) (lookupTarget target) fun id other next =>
      next.ids id other ∧ world = next := by
  unfold lookupTarget
  cases Address.ofTarget? target with
  | none => exact .fail
  | some address =>
      refine .bind (.read linked _ _) ?_
      rintro _ _ _ - - ⟨rfl, rfl, rfl⟩
      have same : world.right.arena.symbol? address.path address.symbol =
          world.left.arena.symbol? address.path address.symbol := by
        simp only [Arena.symbol?, linked.symbols]
      rw [same]
      cases found : world.left.arena.symbol? address.path address.symbol with
      | none => exact .fail
      | some id =>
          exact .pure linked ⟨linked.early id (linked.left.symbols _ _ id found), rfl⟩

theorem anyUndefined_same (linked : world.Linked core) {members others : List SchemaId}
    (related : List.Forall₂ world.ids members others) :
    ∃ included, anyUndefined members world.left = (.ok included, world.left) ∧
      anyUndefined others world.right = (.ok included, world.right) := by
  induction related with
  | nil => exact ⟨false, rfl, rfl⟩
  | cons here _ ih =>
      obtain ⟨node, otherNode, found, found', same⟩ := linked.nodes _ _ here
      unfold anyUndefined
      rw [bind_ok (node_apply found), bind_ok (node_apply found')]
      cases same with
      | @plain node plain =>
          split
          · exact ⟨true, rfl, rfl⟩
          · exact ih
      | _ => exact ih

theorem includesUndefined_same (linked : world.Linked core) (related : world.ids type otherType) :
    ∃ included, includesUndefined type world.left = (.ok included, world.left) ∧
      includesUndefined otherType world.right = (.ok included, world.right) := by
  obtain ⟨node, otherNode, found, found', same⟩ := linked.nodes _ _ related
  unfold includesUndefined
  rw [bind_ok (node_apply found), bind_ok (node_apply found')]
  cases same with
  | @plain node plain => cases node <;> first | exact plain.elim | exact ⟨false, rfl, rfl⟩
  | union members => exact anyUndefined_same linked members
  | _ => exact ⟨false, rfl, rfl⟩

/-- What a projection is accounted for with is what is known of the object. -/
theorem projects_of_sound {state : ResolverState} {object target projected : SchemaId}
    (sound : ProjectionSound core state id projected)
    (access : state.arena.get? id = some (.indexedAccess object index))
    (resolves : Resolves state object target) (known : state.shapes.find? target = some shape) :
    Projects core state shape index projected := by
  obtain ⟨object', index', target', shape', access', ⟨resolves', _⟩, known', projects⟩ :=
    sound.computed
  cases access.symm.trans access'
  cases Lasts.unique resolves resolves'
  cases known.symm.trans known'
  exact projects

theorem projectShape_agrees (linked : world.Linked core)
    (related : Shape.Related world.ids shape otherShape)
    (projects : Projects core world.right otherShape index other) :
    Agrees core excuse world (projectShape shape index) (pure other : Run SchemaId)
      fun projected otherProjected next => next.ids projected otherProjected ∧
        otherProjected = other ∧ next.left.projections = world.left.projections := by
  have declared := Shape.rel_cases (Shape.findProperty_related related.properties index)
  unfold projectShape
  cases projects with
  | @required otherProperty declared' required =>
      rcases declared with ⟨-, undeclared⟩ | ⟨property, _, found, found', here⟩
      · cases undeclared.symm.trans declared'
      · cases found'.symm.trans declared'
        simp only [Shape.property?, found, here.optional, required, Bool.false_eq_true, if_false]
        exact .pure linked ⟨here.type, rfl, rfl⟩
  | @included otherProperty declared' optional included =>
      rcases declared with ⟨-, undeclared⟩ | ⟨property, _, found, found', here⟩
      · cases undeclared.symm.trans declared'
      · cases found'.symm.trans declared'
        obtain ⟨answer, ran, ran'⟩ := includesUndefined_same linked here.type
        cases included.now.symm.trans ran'
        simp only [Shape.property?, found, here.optional, optional, if_true]
        exact .done ((bind_ok ran).trans rfl) rfl (.refl world) linked ⟨here.type, rfl, rfl⟩
  | @added otherProperty union declared' optional missing late node =>
      rcases declared with ⟨-, undeclared⟩ | ⟨property, _, found, found', here⟩
      · cases undeclared.symm.trans declared'
      · cases found'.symm.trans declared'
        obtain ⟨answer, ran, ran'⟩ := includesUndefined_same linked here.type
        cases missing.now.symm.trans ran'
        have undefined : world.ids Arena.undefined Arena.undefined :=
          linked.early _ linked.left.undefined_core
        have members : List.Forall₂ world.ids [property.type, Arena.undefined]
            [otherProperty.type, Arena.undefined] := .cons here.type (.cons undefined .nil)
        have issued : ∀ child ∈ (Node.union [property.type, Arena.undefined]).children,
            child.index < world.left.arena.size := by
          intro child listed
          rcases List.mem_cons.mp listed with rfl | listed
          · exact linked.present here.type
          · cases List.mem_singleton.mp listed
            exact linked.present undefined
        have synthetic : Synthetic core world.right other :=
          ⟨late, _, node, .inr (.inl ⟨_, rfl⟩)⟩
        simp only [Shape.property?, found, here.optional, optional, if_true]
        refine .imp (.congr_left (.alloc linked node (.union members) issued synthetic)
          (bind_ok ran)) ?_
        rintro _ _ _ - - ⟨-, rfl, rfl, pair⟩
        exact ⟨pair, rfl, rfl⟩
  | @signature otherSignature undeclared signed =>
      rcases declared with ⟨none, -⟩ | ⟨property, _, _, found', _⟩
      · rcases Shape.rel_cases related.index with ⟨-, unsigned⟩ | ⟨signature, _, signed', found', here⟩
        · cases unsigned.symm.trans signed
        · cases found'.symm.trans signed
          simp only [Shape.property?, none, signed']
          exact .pure linked ⟨here.type, rfl, rfl⟩
      · cases undeclared.symm.trans found'

theorem keepProjection_agrees {projected otherProjected : SchemaId} (linked : world.Linked core)
    (related : world.ids id other) (known : world.right.projections.find? other = some otherProjected)
    (pair : world.ids projected otherProjected)
    (accounted : ProjectionSound core world.left id projected) :
    Agrees core excuse world (keepProjection id projected) (pure otherProjected : Run SchemaId)
      fun kept otherKept next => next.ids kept otherKept := by
  have kept_related : world.ids (world.left.projections.settle id projected).1 otherProjected := by
    cases earlier : world.left.projections.find? id with
    | some found =>
        rw [Memo.settle_known earlier]
        obtain ⟨otherFound, known', same⟩ := linked.projections id other found related earlier
        cases known.symm.trans known'
        exact same
    | none =>
        rw [Memo.settle_unknown earlier]
        exact pair
  let left := { world.left with projections := (world.left.projections.settle id projected).2 }
  have grown : world.left ≤ left := le_keepProjection world.left id projected
  have linked' : (world.withLeft left).Linked core := by
    refine linked.grow grown (le_refl _) (linked.left.keepProjection fun _ => accounted) linked.right
      rfl (fun _ _ shape _ found => .inl ⟨shape, found⟩) (fun key otherKey found pairs learned => ?_)
      (fun _ _ _ _ found => .inl found) (fun _ _ _ _ found => .inl found)
    rcases Memo.find?_settle_cases learned with earlier | ⟨rfl, rfl, _⟩
    · exact .inl earlier
    · cases linked.functional _ _ _ related pairs
      exact .inr ⟨otherProjected, known, pair⟩
  have ran : keepProjection id projected world.left = (.ok _, (world.withLeft left).left) := rfl
  exact .done ran rfl (.of_right grown rfl fun _ _ pairs => pairs) linked' kept_related

/-- The left run from the shape of the object on, where the right state remembers
the projection. -/
theorem projectTail_agrees {object target otherProjected : SchemaId} (linked : world.Linked core)
    (related : world.ids id other)
    (access : world.left.arena.get? id = some (.indexedAccess object index))
    (resolves : ResolvesLike world.left object target (·.isInterfaceLike = true))
    (within : target.index ≤ core ∨ target.index ≤ id.index)
    (flat : world.left.shapes.find? target = some shape)
    (shapes : Shape.Related world.ids shape otherShape)
    (known : world.right.projections.find? other = some otherProjected)
    (projects : Projects core world.right otherShape index otherProjected) :
    Agrees core excuse world (projectShape shape index >>= keepProjection id)
      (pure otherProjected : Run SchemaId) fun kept otherKept next => next.ids kept otherKept := by
  have own := projectShape_meets linked.left index (shape_issued linked.left flat)
  refine .bind_left ((projectShape_agrees linked shapes projects).and_left own) ?_
  rintro projected _ middle grown linked' right ⟨⟨pair, rfl, -⟩, resolving, -, projects'⟩
  have accounted := projection_sound linked'.left (ResolverState.get?_later access grown.left)
    (resolves.later grown.left) (ResolverState.shape_later flat grown.left) projects' within
  exact keepProjection_agrees linked' (grown.ids _ _ related) (right ▸ known) pair accounted

section

variable {resolve resolveOther : SchemaId → Run SchemaId} {flatten flattenOther : SchemaId → Run Shape}

/-- The left run, where the right state remembers the projection. -/
theorem project_recalled {object otherProjected : SchemaId}
    (resolves : ResolveAgrees core True resolve (resolveWithin 0 1))
    (flattens : FlattenAgrees core True flatten (flattenWithin 0 0 []))
    (resolveMeets : ResolveMeets core resolve) (flattenMeets : FlattenMeets core flatten)
    (linked : world.Linked core) (related : world.ids id other)
    (access : world.left.arena.get? id = some (.indexedAccess object index))
    {otherObject : SchemaId} (objects : world.ids object otherObject)
    (access' : world.right.arena.get? other = some (.indexedAccess otherObject index))
    (known : world.right.projections.find? other = some otherProjected) :
    Agrees core excuse world (do
        let target ← resolve object
        let node ← Run.node target
        if node.isInterfaceLike then
          let shape ← flatten target
          let projected ← projectShape shape index
          keepProjection id projected
        else Run.fail (.indexOnNonInterface node.kind)) (pure otherProjected : Run SchemaId)
      fun kept otherKept next => next.ids kept otherKept := by
  obtain ⟨_, _, otherTarget, otherShape, access'', ⟨leads', otherNode, found', like'⟩, flat', projects⟩ :=
    (linked.right.projections _ _ known).computed
  cases access'.symm.trans access''
  have inner := linked.left.ordered id _ access object (by simp [Node.children])
  refine .bind_left (((resolves world object otherObject linked objects).and_left
    (resolveMeets object world.left linked.left)).settled leads'.now) ?_
  rintro target _ first grown linked₁ right₁ ⟨rfl, -, targets, -, resolved, leads, -⟩
  obtain ⟨node, _, found, found'', same⟩ := linked₁.nodes _ _ targets
  rw [right₁] at found''
  cases found'.symm.trans found''
  have like := same.interfaceLike.trans like'
  refine .congr_left ?_ (bind_ok (node_apply found))
  simp only [like, if_true]
  have recalled := flattenWithin_known (right₁.symm ▸ flat' : first.right.shapes.find? _ = _) 0 0 []
  refine .bind_left (((flattens first target _ linked₁ targets).and_left
    (flattenMeets target first.left linked₁.left)).settled recalled.now) ?_
  rintro shape _ second grown' linked₂ right₂ ⟨rfl, -, shapes, -, flat, -⟩
  refine projectTail_agrees linked₂ (grown'.ids _ _ (grown.ids _ _ related))
    (ResolverState.get?_later access (le_trans grown.left grown'.left))
    (ResolvesLike.later ⟨resolved, node, found, like⟩ grown'.left) (leads.place found like inner)
    flat shapes ?_ ?_
  · rw [right₂, right₁]
    exact known
  · rw [right₂, right₁]
    exact projects

/-- A projection fails on both sides, or the right one succeeds. -/
theorem projectShape_outcome (linked : world.Linked core)
    (related : Shape.Related world.ids shape otherShape) (index : String) :
    (∃ error, projectShape shape index world.left = (.error error, world.left) ∧
        projectShape otherShape index world.right = (.error error, world.right)) ∨
      ∃ projected right, projectShape otherShape index world.right = (.ok projected, right) := by
  unfold projectShape Shape.property?
  rcases Shape.rel_cases (Shape.findProperty_related related.properties index) with
    ⟨none, none'⟩ | ⟨property, otherProperty, found, found', here⟩
  · rw [none, none']
    rcases Shape.rel_cases related.index with ⟨unsigned, unsigned'⟩ | ⟨_, _, signed, signed', _⟩
    · rw [unsigned, unsigned']
      exact .inl ⟨_, rfl, rfl⟩
    · rw [signed, signed']
      exact .inr ⟨_, _, rfl⟩
  · rw [found']
    refine .inr ?_
    obtain ⟨included, -, ran⟩ := includesUndefined_same linked here.type
    cases optional : otherProperty.optional with
    | false =>
        simp only [optional, Bool.false_eq_true, if_false]
        exact ⟨_, _, rfl⟩
    | true =>
        simp only [optional, if_true]
        rw [bind_ok ran]
        cases included <;> exact ⟨_, _, rfl⟩

/-- Both runs from the shape of the object on. -/
theorem projectBoth_agrees {object otherObject target otherTarget : SchemaId}
    (linked : world.Linked core) (related : world.ids id other)
    (access : world.left.arena.get? id = some (.indexedAccess object index))
    (access' : world.right.arena.get? other = some (.indexedAccess otherObject index))
    (resolves : ResolvesLike world.left object target (·.isInterfaceLike = true))
    (resolves' : ResolvesLike world.right otherObject otherTarget (·.isInterfaceLike = true))
    (within : target.index ≤ core ∨ target.index ≤ id.index)
    (within' : otherTarget.index ≤ core ∨ otherTarget.index ≤ other.index)
    (flat : world.left.shapes.find? target = some shape)
    (flat' : world.right.shapes.find? otherTarget = some otherShape)
    (shapes : Shape.Related world.ids shape otherShape) :
    Agrees core excuse world (projectShape shape index >>= keepProjection id)
      (projectShape otherShape index >>= keepProjection other) fun kept otherKept next =>
        next.ids kept otherKept := by
  rcases projectShape_outcome linked shapes index with
    ⟨error, failed, failed'⟩ | ⟨projected, right, ran⟩
  · exact .failed (bind_error failed) (bind_error failed')
  · have own := projectShape_meets linked.right index (shape_issued linked.right flat')
    have resolving := own.always_ok ran
    obtain ⟨same, projects⟩ := own.answers _ _ ran
    have grown := le_trans resolving.grown (le_keepProjection right other projected)
    have accounted := projection_sound resolving.sound
      (ResolverState.get?_later access' resolving.grown) (resolves'.later resolving.grown)
      (ResolverState.shape_later flat' resolving.grown) projects within'
    have sound := resolving.sound.keepProjection fun _ => accounted
    have known := Memo.find?_settle right.projections other projected
    refine .after_right linked ((bind_ok ran).trans rfl) grown sound same fun linked' => ?_
    refine projectTail_agrees linked' related access resolves within flat shapes known ?_
    exact projects_of_sound (sound.projections _ _ known) (ResolverState.get?_later access' grown)
      (resolves'.1.later grown) (ResolverState.shape_later flat' grown)

theorem project_agrees (resolves : ResolveAgrees core excuse resolve resolveOther)
    (settles : ResolveAgrees core True resolve (resolveWithin 0 1))
    (flattens : FlattenAgrees core excuse flatten flattenOther)
    (recalls : FlattenAgrees core True flatten (flattenWithin 0 0 []))
    (resolveMeets : ResolveMeets core resolve) (resolveMeets' : ResolveMeets core resolveOther)
    (flattenMeets : FlattenMeets core flatten) (flattenMeets' : FlattenMeets core flattenOther) :
    ProjectAgrees core excuse (project resolve flatten) (project resolveOther flattenOther) := by
  intro world id other object otherObject index linked related access access' objects
  refine .bind (.read linked _ _) ?_
  rintro _ _ _ - - ⟨rfl, rfl, rfl⟩
  cases known : world.left.projections.find? id with
  | some projected =>
      obtain ⟨otherProjected, known', pair⟩ := linked.projections _ _ _ related known
      simp only [known']
      exact .pure linked pair
  | none =>
      cases known' : world.right.projections.find? other with
      | some otherProjected =>
          exact project_recalled settles recalls resolveMeets flattenMeets linked related access
            objects access' known'
      | none =>
          have inner := linked.left.ordered id _ access object (by simp [Node.children])
          have inner' := linked.right.ordered other _ access' otherObject (by simp [Node.children])
          refine .bind (((resolves world object otherObject linked objects).and_left
            (resolveMeets object world.left linked.left)).and_right
            (resolveMeets' otherObject world.right linked.right)) ?_
          rintro target otherTarget first grown linked₁
            ⟨⟨targets, -, resolved, leads, -⟩, -, resolved', leads', -⟩
          refine .bind (.node linked₁ targets) ?_
          rintro node otherNode _ - - ⟨found, found', same, rfl⟩
          rw [← same.interfaceLike, ← same.kind]
          cases like : node.isInterfaceLike with
          | false => exact .fail
          | true =>
              have like' := same.interfaceLike.symm.trans like
              simp only [if_true]
              refine .bind (((flattens first target otherTarget linked₁ targets).and_left
                (flattenMeets target first.left linked₁.left)).and_right
                (flattenMeets' otherTarget first.right linked₁.right)) ?_
              rintro shape otherShape second grown' linked₂ ⟨⟨shapes, -, flat, -⟩, -, flat', -⟩
              exact projectBoth_agrees linked₂ (grown'.ids _ _ (grown.ids _ _ related))
                (ResolverState.get?_later access (le_trans grown.left grown'.left))
                (ResolverState.get?_later access' (le_trans grown.right grown'.right))
                (ResolvesLike.later ⟨resolved, node, found, like⟩ grown'.left)
                (ResolvesLike.later ⟨resolved', otherNode, found', like'⟩ grown'.right)
                (leads.place found like inner) (leads'.place found' like' inner') flat flat' shapes

end

end Conform.Agreement
