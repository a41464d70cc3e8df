import Conform.Proofs.Alike.Surveys
import Conform.Proofs.Distribution.Spanning
import Conform.Proofs.Resolver.Combined

/-! Nodes with all properties optional.  What stands for such a node is settled like what stands
for its target: a shape is a shape with the same properties, all optional, and a union is a union
of such nodes, one for each member. -/

namespace Conform.Resolver

open Run Agreement

variable {core : Nat} {state : ResolverState} {ids : SchemaId → SchemaId → Prop}
  {id weak resolved union weakUnion origin otherOrigin member top next branch : SchemaId}
  {combinators otherCombinators : List Combinator} {combinator : Combinator}
  {members others tops otherTops visited : List SchemaId} {shape : Shape}

/-- `weak` makes all properties optional of a node that is related to the other. -/
def Weakens (ids : SchemaId → SchemaId → Prop) (state : ResolverState) (id weak : SchemaId) : Prop :=
  ∃ inner, state.arena.get? weak = some (.mapped .optional inner) ∧ ids id inner

/-- Unions, with the members of one made optional in the other. -/
def WeakensEach (ids : SchemaId → SchemaId → Prop) (state : ResolverState) (union weak : SchemaId) : Prop :=
  ∃ members tops, state.arena.get? union = some (.union members) ∧
    state.arena.get? weak = some (.union tops) ∧ List.Forall₂ (Weakens ids state) members tops

/-- What a concrete node and the optional one are checked by. -/
inductive WeakensTo (ids : SchemaId → SchemaId → Prop) (state : ResolverState) (id weak : SchemaId) : Prop
  | union {weakUnion : SchemaId} (known : state.distributions.find? weak = some weakUnion)
      (each : WeakensEach ids state id weakUnion)
  | distributed {union weakUnion : SchemaId} (known : state.distributions.find? id = some union)
      (weak_known : state.distributions.find? weak = some weakUnion)
      (each : WeakensEach ids state union weakUnion)
  | declared {shape base : Shape} (declares : Declares state id shape)
      (weak_declares : Declares state weak base.allOptional) (shapes : Shape.Related ids shape base)

theorem Tower.outermost (tower : Tower core state origin (combinators ++ [combinator]) member top) :
    ∃ inner, Tower core state origin combinators member inner ∧
      state.arena.get? top = some (.mapped combinator inner) := by
  induction combinators generalizing member with
  | nil =>
      cases tower with
      | apply node _ _ rest =>
          cases rest
          exact ⟨member, .base, node⟩
  | cons first rest ih =>
      cases tower with
      | apply node late behind above =>
          obtain ⟨inner, below, outermost⟩ := ih above
          exact ⟨inner, .apply node late behind below, outermost⟩

/-- The same combinators on related members, and all properties optional on one side. -/
theorem towers_weaken (likens : Likens ids state.arena state.arena)
    (towers : List.Forall₂ (Tower core state origin combinators) members tops)
    (towers' : List.Forall₂ (Tower core state otherOrigin (otherCombinators ++ [.optional])) others otherTops)
    (same : List.Forall₂ (Combinator.Related ids) combinators otherCombinators)
    (related : List.Forall₂ ids members others) : List.Forall₂ (Weakens ids state) tops otherTops := by
  induction related generalizing tops otherTops with
  | nil =>
      cases towers
      cases towers'
      exact .nil
  | cons here _ ih =>
      obtain ⟨top, rest, tower, below, rfl⟩ := List.forall₂_cons_left_iff.mp towers
      obtain ⟨otherTop, otherRest, tower', below', rfl⟩ := List.forall₂_cons_left_iff.mp towers'
      obtain ⟨inner, lower, node⟩ := tower'.outermost
      exact .cons ⟨inner, node, tower.related likens lower same here⟩ (ih below below')

section

variable (settled : Settled core ids state state) (likens : Likens ids state.arena state.arena)
  (weakens : Weakens ids state id weak) (resolves : Resolves state id resolved)
  (decided : Decided state resolved)

include settled weakens resolves decided

include likens in
/-- The chain from the optional node leads to a union: so does the one from the other node. -/
theorem Weakens.distributed (known : state.distributions.find? weak = some weakUnion) :
    WeakensTo ids state resolved weak := by
  have sound := settled.sound
  obtain ⟨inner, weak_node, related⟩ := weakens
  obtain ⟨node, found, decides⟩ := decided
  obtain ⟨_, _, budget, chain, members, tops, weak_node', walks, weak_union, towers⟩ :=
    (sound.distributions weak weakUnion known).computed
  cases weak_node.symm.trans weak_node'
  obtain ⟨_, target, other, -, resolves', found', onward⟩ := walks.step sound
  have pair := Resolves.related settled.corresponds related resolves resolves'
  cases settled.corresponds.nodes pair found found' with
  | @union listed _ pairs =>
      cases onward
      have bases : List.Forall₂ (Tower core state weak []) listed listed :=
        List.forall₂_same.mpr fun _ _ => .base
      have optional : List.Forall₂ (Tower core state weak ([] ++ [.optional])) members tops := towers
      exact .union known ⟨listed, tops, found, weak_union, towers_weaken likens bases optional .nil pairs⟩
  | @mapped combinator otherCombinator object otherObject combinators objects =>
      -- Without the outermost combinator the chain is that of the other node.
      obtain ⟨_, walks', reached⟩ := Walks.inner sound onward ⟨otherCombinator, []⟩ rfl
      have start : List.Forall₂ (Combinator.Related ids) (⟨combinator, []⟩ : CombinatorChain).toList
          (⟨otherCombinator, []⟩ : CombinatorChain).toList := .cons combinators .nil
      cases reached with
      | @some _ last ends =>
          obtain ⟨chained, same⟩ : chain.toList = last.1.toList ++ [.optional] ∧ members = last.2 := ends
          rw [chained, same] at towers
          rcases decides rfl with ⟨union, known'⟩ | ⟨shape, declares⟩
          · obtain ⟨_, _, _, _, _, listed, node', walks, union_node, towers'⟩ :=
              (sound.distributions resolved union known').computed
            cases found.symm.trans node'
            cases Walks.related settled.corresponds start objects walks walks' with
            | some walked =>
                exact .distributed known' known ⟨listed, tops, union_node, weak_union,
                  towers_weaken likens towers' towers walked.combinators walked.members⟩
          · cases declares.undistributed with
            | interface node' => cases found.symm.trans node'
            | mapped node' walks =>
                cases found.symm.trans node'
                cases Walks.related settled.corresponds start objects walks walks'
  | @plain node plain => cases node <;> first | exact plain.elim | exact onward.elim
  | interface _ _ _ => cases onward
  | _ => exact onward.elim

/-- The optional node has a shape: it is made from a shape that is related to that of the other. -/
theorem Weakens.declared (declares : Declares state weak shape) : WeakensTo ids state resolved weak := by
  have sound := settled.sound
  obtain ⟨inner, weak_node, related⟩ := weakens
  obtain ⟨node, found, decides⟩ := decided
  obtain ⟨target, base, resolves', base_known, made⟩ := mapped_known sound weak_node declares.shape
  have pair := Resolves.related settled.corresponds related resolves resolves'
  have base_declares := declares_of_known sound resolves' base_known
  obtain ⟨other, found', like⟩ := base_declares.interfaceLike
  have like := (settled.corresponds.nodes pair found found').interfaceLike.trans like
  cases made
  rcases decides like with ⟨union, known⟩ | ⟨shape, strong⟩
  · cases known.symm.trans (settled.swap.undistributed pair base_declares.undistributed)
  · exact .declared strong declares (settled.shapes_related pair strong.shape base_known)

include likens in
theorem Weakens.to (weak_decided : Decided state weak) : WeakensTo ids state resolved weak := by
  have ⟨_, weak_node, _⟩ := weakens
  obtain ⟨_, found, decides⟩ := weak_decided
  cases weak_node.symm.trans found
  rcases decides rfl with ⟨union, known⟩ | ⟨shape, declares⟩
  · exact weakens.distributed settled likens resolves decided known
  · exact weakens.declared settled resolves decided declares

end

theorem Branches.decided (step : Branches state id next) (sound : state.Sound core) :
    Decided state id := by
  cases step with
  | union node _ _ | intersection node _ _ => exact ⟨_, node, nofun⟩
  | distributed known =>
      obtain ⟨_, _, node⟩ := sound.mapped_of_distribution known
      exact ⟨_, node, fun _ => .inl ⟨next, known⟩⟩

theorem Declares.decided (declares : Declares state id shape) : Decided state id := by
  obtain ⟨node, found, -⟩ := declares.interfaceLike
  exact ⟨node, found, fun _ => .inr ⟨shape, declares⟩⟩

theorem Expanded.distribution_mem (expanded : Expanded state visited id) (sound : state.Sound core)
    (known : state.distributions.find? id = some union) : union ∈ visited := by
  obtain ⟨_, _, node⟩ := sound.mapped_of_distribution known
  rcases expanded.interfaceLike node rfl with ⟨other, inside, known'⟩ | ⟨shape, declares⟩
  · cases known.symm.trans known'
    exact inside
  · exact (silent_of_distribution sound known shape declares).elim

/-- Behind a member of the one union stands what the optional member makes optional. -/
theorem WeakensEach.exists_member (each : WeakensEach ids state id weak) (sound : state.Sound core)
    (expanded : Expanded state visited weak) (step : Branches state id next) :
    ∃ top ∈ visited, ∃ member, Weakens ids state member top ∧ Resolves state member next := by
  obtain ⟨members, tops, node, weak_node, pairs⟩ := each
  cases step with
  | union node' listed resolves =>
      cases node.symm.trans node'
      obtain ⟨top, inside, weakens⟩ := exists_counterpart pairs listed
      obtain ⟨resolved, reached, resolves'⟩ := expanded.member_mem weak_node (.inl rfl) inside
      have ⟨_, top_node, _⟩ := weakens
      cases resolves'.concrete top_node trivial
      exact ⟨_, reached, _, weakens, resolves⟩
  | intersection node' _ _ => cases node.symm.trans node'
  | distributed known =>
      obtain ⟨_, _, node'⟩ := sound.mapped_of_distribution known
      cases node.symm.trans node'

/-- A branch behind the one union has its counterpart behind the other. -/
theorem WeakensEach.reached (settled : Settled core ids state state)
    (likens : Likens ids state.arena state.arena) (each : WeakensEach ids state union weakUnion)
    (explored : Explored state visited weakUnion)
    (path : Relation.ReflTransGen (Branches state) union branch) :
    ∃ other ∈ visited, WeakensEach ids state branch other ∨
      ∃ member, Weakens ids state member other ∧ Resolves state member branch := by
  have sound := settled.sound
  induction path with
  | refl => exact ⟨weakUnion, explored.1, .inl each⟩
  | tail _ step ih =>
      obtain ⟨other, inside, here⟩ := ih
      have expanded := (explored.2 other inside).1
      rcases here with each | ⟨member, weakens, resolves⟩
      · obtain ⟨top, reached, pair⟩ := each.exists_member sound expanded step
        exact ⟨top, reached, .inr pair⟩
      · cases weakens.to settled likens resolves (step.decided sound) expanded.decided with
        | union known each =>
            have reached := expanded.distribution_mem sound known
            obtain ⟨top, reached, pair⟩ := each.exists_member sound (explored.2 _ reached).1 step
            exact ⟨top, reached, .inr pair⟩
        | distributed known weak_known each =>
            cases step.of_distribution sound known
            exact ⟨_, expanded.distribution_mem sound weak_known, .inl each⟩
        | declared declares _ _ =>
            cases declares.ends sound (.single step)
            exact ⟨other, inside, .inr ⟨member, weakens, resolves⟩⟩

end Conform.Resolver
