import Conform.Proofs.Alike.Basic
import Conform.Proofs.Alike.Corresponding

/-! What two states remember of related nodes.  Shapes were computed from older shapes, in the same
way on both sides.  Projections and distributions may have added nodes, so that what is remembered
is related only if such nodes are related as soon as they are made in the same way. -/

namespace Conform.Resolver

open Run

variable {core : Nat} {ids : SchemaId → SchemaId → Prop} {left right base : ResolverState}
  {id other : SchemaId} {shape otherShape : Shape} {older otherOlder : List (SchemaId × Shape)}

/-- Every entry was computed from the entries before it. -/
def ShapesSound (core : Nat) (state : ResolverState) : Prop :=
  ∀ older id shape, (id, shape) :: older <:+ state.shapes.entries → ShapeSound core state older id shape

theorem recallShape_concur
    (known : ∀ {shape otherShape}, older.lookup id = some shape → otherOlder.lookup other = some otherShape →
      Shape.Related ids shape otherShape) :
    Concur left right (recallShape older id) (recallShape otherOlder other) (Shape.Related ids) := by
  unfold recallShape
  cases found : older.lookup id with
  | none => exact .of_left nofun
  | some shape =>
      cases found' : otherOlder.lookup other with
      | none => exact .of_right nofun
      | some otherShape => exact .pure (known found found')

theorem shapes_related (corresponds : Corresponds ids left right) (computed : ShapesSound core left)
    (sound : right.Sound core) (related : ids id other) (known : left.shapes.find? id = some shape)
    (known' : right.shapes.find? other = some otherShape) : Shape.Related ids shape otherShape := by
  have all : ∀ other otherShape, ids id other → right.shapes.find? other = some otherShape →
      Shape.Related ids shape otherShape := by
    apply Memo.find?_induction (motive := fun id shape => ∀ other otherShape, ids id other →
      right.shapes.find? other = some otherShape → Shape.Related ids shape otherShape) _ known
    intro older id shape suffix earlier other otherShape related known'
    obtain ⟨otherOlder, entry, accounted⟩ := shape_sound sound known'
    refine (flattenNode_concur corresponds (fun pair => recallShape_concur fun found found' => ?_)
      related).lasting (computed older id shape suffix).computed accounted.computed
    exact earlier _ _ found _ _ pair
      (shape_of_suffix sound ((List.suffix_cons _ _).trans entry) found')
  exact all other otherShape related known'

/-- The relation tells symbols and nodes apart by what they are made of, and by nothing else. -/
structure Likens (ids : SchemaId → SchemaId → Prop) (left right : Arena) : Prop where
  nodes : ∀ {id other node otherNode}, ids id other → left.get? id = some node →
    right.get? other = some otherNode → Node.Related ids node otherNode
  symbols : ∀ {path symbol id other}, left.symbol? path symbol = some id →
    right.symbol? path symbol = some other → ids id other
  admits : ∀ {id other node otherNode}, left.get? id = some node → right.get? other = some otherNode →
    Node.Related ids node otherNode → ids id other
  undefined : ids Arena.undefined Arena.undefined

/-- Being alike does, over an arena that both have in common. -/
theorem Likens.alike {arena left right : Arena} (sound : ResolverState.Sound arena.size (.ofArena arena))
    (grown : arena ≤ left) (grown' : arena ≤ right) : Likens (Arena.Alike left right) left right where
  nodes {id other _ _} alike found found' := by
    obtain ⟨_, _, here, there, same⟩ := Arena.Alike.unfolds left right id other alike
    cases found.symm.trans here
    cases found'.symm.trans there
    exact same
  symbols {path symbol id _} found found' := by
    rw [Arena.symbol?_mono grown] at found
    rw [Arena.symbol?_mono grown'] at found'
    cases found.symm.trans found'
    exact .shared sound.ordered_nodes grown grown' (sound.symbols path symbol id found)
  admits found found' related := .of_nodes found found' related
  undefined := .shared sound.ordered_nodes grown grown' sound.undefined_core

theorem Projects.of_undeclared {state : ResolverState} {index : String}
    (projects : Projects core state shape index id) (undeclared : shape.property? index = none) :
    ∃ signature, shape.index = some signature ∧ id = signature.type := by
  cases projects with
  | signature _ signed => exact ⟨_, signed, rfl⟩
  | required declared _ | included declared _ _ | added declared _ _ _ _ =>
      cases undeclared.symm.trans declared

theorem Projects.of_declared {state : ResolverState} {index : String} {property : Property}
    (projects : Projects core state shape index id) (declared : shape.property? index = some property) :
    (id = property.type ∧ (property.optional = true → Lasts (includesUndefined property.type) state true)) ∨
      property.optional = true ∧ Lasts (includesUndefined property.type) state false ∧
        state.arena.get? id = some (.union [property.type, Arena.undefined]) := by
  cases projects with
  | required known required =>
      cases declared.symm.trans known
      exact .inl ⟨rfl, fun optional => by cases required.symm.trans optional⟩
  | included known _ included =>
      cases declared.symm.trans known
      exact .inl ⟨rfl, fun _ => included⟩
  | added known optional missing _ node =>
      cases declared.symm.trans known
      exact .inr ⟨optional, missing, node⟩
  | signature undeclared _ => cases undeclared.symm.trans declared

theorem Projects.related (corresponds : Corresponds ids left right) (grown : left ≤ base)
    (likens : Likens ids base.arena right.arena) {index : String}
    (shapes : Shape.Related ids shape otherShape) (projects : Projects core left shape index id)
    (projects' : Projects core right otherShape index other) : ids id other := by
  rcases Shape.rel_cases (Shape.findProperty_related shapes.properties index) with
    ⟨undeclared, undeclared'⟩ | ⟨property, otherProperty, declared, declared', here⟩
  · obtain ⟨signature, signed, rfl⟩ := projects.of_undeclared undeclared
    obtain ⟨otherSignature, signed', rfl⟩ := projects'.of_undeclared undeclared'
    have indices := shapes.index
    rw [signed, signed'] at indices
    cases indices with
    | some same => exact same.type
  · have included := includesUndefined_concur corresponds here.type
    rcases projects.of_declared declared with ⟨rfl, has⟩ | ⟨optional, lacks, node⟩ <;>
      rcases projects'.of_declared declared' with ⟨rfl, has'⟩ | ⟨optional', lacks', node'⟩
    · exact here.type
    · cases included.lasting (has (here.optional.trans optional')) lacks'
    · cases included.lasting lacks (has' (here.optional.symm.trans optional))
    · exact likens.admits (ResolverState.get?_later node grown) node'
        (.union (.cons here.type (.cons likens.undefined .nil)))

/-- A projection that is accounted for is related to one that is remembered. -/
theorem ProjectionSound.related (corresponds : Corresponds ids left right)
    (computed : ShapesSound core left) (sound : right.Sound core) (grown : left ≤ base)
    (likens : Likens ids base.arena right.arena) (related : ids id other)
    {projected otherProjected : SchemaId} (accounted : ProjectionSound core left id projected)
    (known : right.projections.find? other = some otherProjected) : ids projected otherProjected := by
  obtain ⟨object, index, target, shape, access, ⟨resolves, -⟩, shaped, projects⟩ := accounted.computed
  obtain ⟨otherObject, otherIndex, otherTarget, otherShape, access', ⟨resolves', -⟩, shaped', projects'⟩ :=
    (sound.projections other otherProjected known).computed
  have nodes := corresponds.nodes related access access'
  cases nodes with
  | plain plain => exact plain.elim
  | indexedAccess objects _ =>
      have targets := Resolves.related corresponds objects resolves resolves'
      have shapes := shapes_related corresponds computed sound targets shaped shaped'
      exact projects.related corresponds grown likens shapes projects'

/-- Projections correspond however they came about: the induction is on the history of one side,
and each projection that is added there comes from what had been related before. -/
theorem History.corresponds (history : History core left) (grown : left ≤ base)
    (likens : Likens ids base.arena right.arena) (sound : right.Sound core) :
    Corresponds ids left right := by
  have nodes {state : ResolverState} (grown : state ≤ base) {id other : SchemaId} {node otherNode : Node}
      (related : ids id other) (found : state.arena.get? id = some node)
      (found' : right.arena.get? other = some otherNode) : Node.Related ids node otherNode :=
    likens.nodes related (ResolverState.get?_later found grown) found'
  have symbols {state : ResolverState} (grown : state ≤ base) {path symbol : String} {id other : SchemaId}
      (found : state.arena.symbol? path symbol = some id)
      (found' : right.arena.symbol? path symbol = some other) : ids id other :=
    likens.symbols ((Arena.symbol?_mono (ResolverState.arena_le grown) path symbol).trans found) found'
  induction history with
  | start unknown =>
      exact ⟨nodes grown, symbols grown, fun _ known => by cases (unknown _).symm.trans known⟩
  | grow _ larger same ih =>
      have earlier := ih (le_trans larger grown)
      refine ⟨nodes grown, symbols grown, fun related known => ?_⟩
      rw [same] at known
      exact earlier.projections related known
  | @keep before key kept _ computed accounted ih =>
      have larger := le_trans (le_keepProjection before key kept) grown
      have earlier := ih larger
      refine ⟨nodes grown, symbols grown, fun related known known' => ?_⟩
      rcases Memo.find?_settle_cases known with known | ⟨rfl, rfl, -⟩
      · exact earlier.projections related known known'
      · exact accounted.related earlier computed sound larger likens related known'

theorem Tower.related (likens : Likens ids left.arena right.arena) {origin otherOrigin : SchemaId}
    {combinators otherCombinators : List Combinator} {member top otherMember otherTop : SchemaId}
    (tower : Tower core left origin combinators member top)
    (tower' : Tower core right otherOrigin otherCombinators otherMember otherTop)
    (same : List.Forall₂ (Combinator.Related ids) combinators otherCombinators)
    (members : ids member otherMember) : ids top otherTop := by
  induction tower generalizing otherCombinators otherMember with
  | base =>
      cases same
      cases tower'
      exact members
  | apply node late behind rest ih =>
      obtain ⟨otherCombinator, otherOuter, here, outer, rfl⟩ := List.forall₂_cons_left_iff.mp same
      cases tower' with
      | apply node' late' behind' rest' =>
          exact ih rest' outer (likens.admits node node' (.mapped here members))

theorem towers_related (likens : Likens ids left.arena right.arena) {origin otherOrigin : SchemaId}
    {combinators otherCombinators : List Combinator} {members tops others otherTops : List SchemaId}
    (towers : List.Forall₂ (Tower core left origin combinators) members tops)
    (towers' : List.Forall₂ (Tower core right otherOrigin otherCombinators) others otherTops)
    (same : List.Forall₂ (Combinator.Related ids) combinators otherCombinators)
    (related : List.Forall₂ ids members others) : List.Forall₂ ids tops otherTops := by
  induction related generalizing tops otherTops with
  | nil =>
      cases towers
      cases towers'
      exact .nil
  | cons here _ ih =>
      obtain ⟨top, rest, tower, below, rfl⟩ := List.forall₂_cons_left_iff.mp towers
      obtain ⟨otherTop, otherRest, tower', below', rfl⟩ := List.forall₂_cons_left_iff.mp towers'
      exact .cons (tower.related likens tower' same here) (ih below below')

section

variable (corresponds : Corresponds ids left right)

include corresponds

theorem DistributionSound.related (likens : Likens ids left.arena right.arena) {union otherUnion : SchemaId}
    (related : ids id other) (accounted : DistributionSound core left id union)
    (accounted' : DistributionSound core right other otherUnion) : ids union otherUnion := by
  obtain ⟨combinator, target, budget, chain, members, tops, node, walks, found, towers⟩ := accounted.computed
  obtain ⟨otherCombinator, otherTarget, otherBudget, otherChain, others, otherTops, node', walks', found',
    towers'⟩ := accounted'.computed
  cases corresponds.nodes related node node' with
  | plain plain => exact plain.elim
  | mapped combinators targets =>
      have start : List.Forall₂ (Combinator.Related ids) (⟨combinator, []⟩ : CombinatorChain).toList
          (⟨otherCombinator, []⟩ : CombinatorChain).toList := .cons combinators .nil
      cases walks.related corresponds start targets walks' with
      | some walked =>
          exact likens.admits found found'
            (.union (towers_related likens towers towers' walked.combinators walked.members))

/-- No union stands for a node if none does for a related one. -/
theorem Undistributed.excludes {otherUnion : SchemaId} (related : ids id other)
    (undistributed : Undistributed left id) : ¬ DistributionSound core right other otherUnion := by
  intro accounted
  obtain ⟨otherCombinator, otherTarget, otherBudget, otherChain, others, otherTops, node', walks', -⟩ :=
    accounted.computed
  cases undistributed with
  | interface node => cases corresponds.nodes related node node'
  | mapped node walks =>
      cases corresponds.nodes related node node' with
      | plain plain => exact plain.elim
      | mapped combinators targets =>
          have start : List.Forall₂ (Combinator.Related ids) (⟨_, []⟩ : CombinatorChain).toList
              (⟨_, []⟩ : CombinatorChain).toList := .cons combinators .nil
          cases Walks.related corresponds start targets walks walks'

end

end Conform.Resolver
