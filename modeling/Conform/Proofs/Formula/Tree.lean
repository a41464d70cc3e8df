import Conform.Proofs.Formula.Basic
import Conform.Proofs.Agreement.Related
import Conform.Proofs.Validator.Yields

/-! The formula of a schema in a state that knows what all members resolve to.
The branches behind the schema are those behind the leaves. -/

namespace Conform.Resolver

open Run

variable {core : Nat} {state : ResolverState} {id target : SchemaId} {formula : Formula}

/-- The formula of a schema in a state that knows what all members resolve to. -/
inductive Tree (state : ResolverState) : SchemaId → Formula → Prop
  | leaf {id target : SchemaId} {node : Node} (resolves : Resolves state id target)
      (found : state.arena.get? target = some node) (single : ¬ node.Combines) :
      Tree state id (.leaf target)
  | union {id target : SchemaId} {members : List SchemaId} {parts : List Formula}
      (resolves : Resolves state id target)
      (found : state.arena.get? target = some (.union members))
      (trees : List.Forall₂ (Tree state) members parts) : Tree state id (.any parts)
  | intersection {id target : SchemaId} {members : List SchemaId} {parts : List Formula}
      (resolves : Resolves state id target)
      (found : state.arena.get? target = some (.intersection members))
      (trees : List.Forall₂ (Tree state) members parts) : Tree state id (.all parts)

theorem Tree.exists_resolves (tree : Tree state id formula) : ∃ target, Resolves state id target := by
  cases tree with
  | leaf resolves _ _ => exact ⟨_, resolves⟩
  | union resolves _ _ => exact ⟨_, resolves⟩
  | intersection resolves _ _ => exact ⟨_, resolves⟩

theorem Tree.compound (tree : Tree state id formula) (compound : formula.IsCompound) :
    ∃ target node members, Resolves state id target ∧ state.arena.get? target = some node ∧
      (node = .union members ∨ node = .intersection members) ∧
      List.Forall₂ (Tree state) members formula.parts := by
  cases tree with
  | leaf _ _ _ => exact compound.elim
  | union resolves found trees => exact ⟨_, _, _, resolves, found, .inl rfl, trees⟩
  | intersection resolves found trees => exact ⟨_, _, _, resolves, found, .inr rfl, trees⟩

theorem Branches.of_member {node : Node} {members : List SchemaId} {member next : SchemaId}
    (found : state.arena.get? id = some node)
    (combines : node = .union members ∨ node = .intersection members) (listed : member ∈ members)
    (resolves : Resolves state member next) : Branches state id next := by
  rcases combines with rfl | rfl
  · exact .union found listed resolves
  · exact .intersection found listed resolves

/-- A way down from a union or intersection enters one of its members. -/
theorem Branches.member {node : Node} {members : List SchemaId} {next : SchemaId}
    (step : Branches state id next) (sound : state.Sound core)
    (found : state.arena.get? id = some node)
    (combines : node = .union members ∨ node = .intersection members) :
    ∃ member ∈ members, Resolves state member next := by
  cases step with
  | union here listed leads | intersection here listed leads =>
      cases found.symm.trans here
      rcases combines with same | same <;> cases same
      exact ⟨_, listed, leads⟩
  | distributed known =>
      obtain ⟨_, _, here⟩ := sound.mapped_of_distribution known
      cases found.symm.trans here
      rcases combines with same | same <;> cases same

theorem Tree.reaches_leaf (tree : Tree state id formula) (resolves : Resolves state id target)
    {leaf : SchemaId} (listed : leaf ∈ formula.leaves) :
    Relation.ReflTransGen (Branches state) target leaf := by
  induction formula using Formula.of_parts generalizing id target with
  | leaf found =>
      cases List.mem_singleton.mp listed
      cases tree with
      | leaf resolves' _ _ =>
          cases Lasts.unique resolves resolves'
          exact .refl
  | compound formula compound ih =>
      rw [compound.leaves_eq] at listed
      obtain ⟨part, inside, listed⟩ := List.mem_flatMap.mp listed
      obtain ⟨target', node, members, resolves', found, combines, trees⟩ := tree.compound compound
      cases Lasts.unique resolves resolves'
      obtain ⟨member, member_listed, tree⟩ := exists_origin trees inside
      obtain ⟨onward, leads⟩ := tree.exists_resolves
      exact .head (.of_member found combines member_listed leads) (ih part inside tree leads listed)

theorem Tree.through_leaf (tree : Tree state id formula) (sound : state.Sound core)
    (resolves : Resolves state id target) {branch : SchemaId}
    (path : Relation.ReflTransGen (Branches state) target branch) {shape : Shape}
    (declares : Declares state branch shape) :
    ∃ leaf ∈ formula.leaves, Relation.ReflTransGen (Branches state) leaf branch := by
  induction formula using Formula.of_parts generalizing id target with
  | leaf found =>
      cases tree with
      | leaf resolves' _ _ =>
          cases Lasts.unique resolves resolves'
          exact ⟨_, List.mem_singleton_self _, path⟩
  | compound formula compound ih =>
      obtain ⟨target', node, members, resolves', found, combines, trees⟩ := tree.compound compound
      cases Lasts.unique resolves resolves'
      rcases Relation.ReflTransGen.cases_head path with rfl | ⟨next, step, rest⟩
      · have unlike : node.isInterfaceLike = false := by rcases combines with rfl | rfl <;> rfl
        exact (silent_of_node found unlike shape declares).elim
      · obtain ⟨member, listed, leads⟩ := step.member sound found combines
        obtain ⟨part, inside, tree⟩ := exists_counterpart trees listed
        obtain ⟨leaf, leaf_listed, onward⟩ := ih part inside tree leads rest
        rw [compound.leaves_eq]
        exact ⟨leaf, List.mem_flatMap.mpr ⟨part, inside, leaf_listed⟩, onward⟩

end Conform.Resolver
