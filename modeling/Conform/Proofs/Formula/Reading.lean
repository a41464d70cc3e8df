import Conform.Proofs.Formula.Tree
import Conform.Proofs.Validator.Together

/-! The formula of a schema as a caller reads it.  In a later state that knows what
the members resolve to the same formula is found again.  Only nodes on the way to
the leaves can be others: resolution adds nothing but unions, so the leaves are
those of the earlier state. -/

namespace Conform

theorem Node.not_union {node : Node} (single : ¬ node.Combines) : ¬ node.IsUnion := by
  cases node <;> first | exact single | exact id

theorem Node.Related.combines {ids : SchemaId → SchemaId → Prop} {node otherNode : Node}
    (related : Node.Related ids node otherNode) : node.Combines ↔ otherNode.Combines := by
  cases related <;> rfl

namespace Validator

open Run Resolver Agreement

variable {core : Nat} {validator : Validator} {world : World} {id other target : SchemaId}
  {visited : List SchemaId} {formula : Formula}

mutual

/-- The formula that a schema has for a caller: the schema is resolved, and the
members of a union or intersection are read in the state that this leaves. -/
inductive Reads : Validator → SchemaId → Formula → Prop
  | leaf {validator after : Validator} {id resolved : SchemaId} {node : Node}
      (ran : validator.resolve id = (.ok resolved, after))
      (found : after.state.arena.get? resolved = some node) (single : ¬ node.Combines) :
      Reads validator id (.leaf resolved)
  | union {validator after : Validator} {id resolved : SchemaId} {members : List SchemaId}
      {parts : List Formula} (ran : validator.resolve id = (.ok resolved, after))
      (found : after.state.arena.get? resolved = some (.union members))
      (reads : ReadsEach after members parts) : Reads validator id (.any parts)
  | intersection {validator after : Validator} {id resolved : SchemaId} {members : List SchemaId}
      {parts : List Formula} (ran : validator.resolve id = (.ok resolved, after))
      (found : after.state.arena.get? resolved = some (.intersection members))
      (reads : ReadsEach after members parts) : Reads validator id (.all parts)

inductive ReadsEach : Validator → List SchemaId → List Formula → Prop
  | nil {validator : Validator} : ReadsEach validator [] []
  | cons {validator : Validator} {id : SchemaId} {formula : Formula} {rest : List SchemaId}
      {formulas : List Formula} (here : Reads validator id formula)
      (others : ReadsEach validator rest formulas) :
      ReadsEach validator (id :: rest) (formula :: formulas)

end

theorem ReadsEach.forall₂ {validator : Validator} {ids : List SchemaId} {parts : List Formula}
    (reads : ReadsEach validator ids parts) : List.Forall₂ (Reads validator) ids parts := by
  induction ids generalizing parts with
  | nil =>
      cases reads
      exact .nil
  | cons id rest ih =>
      cases reads with
      | cons here others => exact .cons here (ih others)

/-- Every node on the left that is no union stands for itself. -/
structure Mirrors (core : Nat) (world : World) : Prop where
  linked : world.Linked core
  own : ∀ id node, world.left.arena.get? id = some node → ¬ node.IsUnion → world.ids id id

theorem forall₂_across {α β γ : Type} {first : α → β → Prop} {second : α → γ → Prop}
    {third : β → γ → Prop} {lefts : List α} {rights : List β} {parts : List γ}
    (related : List.Forall₂ first lefts rights) (given : List.Forall₂ second lefts parts)
    (into : ∀ left right part, right ∈ rights → part ∈ parts → first left right →
      second left part → third right part) : List.Forall₂ third rights parts := by
  induction related generalizing parts with
  | nil =>
      cases given
      exact .nil
  | cons here _ ih =>
      cases given with
      | cons there others =>
          refine .cons (into _ _ _ (List.mem_cons_self ..) (List.mem_cons_self ..) here there) ?_
          exact ih others fun left right part listed inside => into left right part
            (List.mem_cons_of_mem _ listed) (List.mem_cons_of_mem _ inside)

/-- The target of a resolution, beside one that is known on the right. -/
theorem Mirrors.resolved {resolved : SchemaId} {after : Validator} (mirrors : Mirrors core world)
    (left : world.left = validator.state) (related : world.ids id other)
    (ran : validator.resolve id = (.ok resolved, after))
    (resolves : Resolves world.right other target) :
    ∃ next, next.left = after.state ∧ next.right = world.right ∧ Mirrors core next ∧
      next.ids resolved target := by
  have here : Resolver.resolve validator.options.maxDepth id world.left = (.ok resolved, after.state) := by
    rw [left]
    exact of_perform ran
  have there : Resolver.resolve validator.options.maxDepth other world.right = (.ok target, world.right) := by
    cases limit : validator.options.maxDepth with
    | zero =>
        rw [limit] at here
        cases here
    | succ steps => exact (resolves.lasts _ steps).now
  have agrees := (resolve_agrees validator.options.maxDepth mirrors.linked related).and_left
    (resolveWithin_meets _ _ id world.left mirrors.linked.left)
  obtain ⟨next, left', right', grown, linked, pair, resolving, -⟩ := agrees.of_both here there
  refine ⟨next, left', right', ⟨linked, fun id node present plain => ?_⟩, pair⟩
  exact grown.ids _ _ (mirrors.own id node
    ((resolving.added id node present).resolve_right plain) plain)

theorem Reads.tree (reads : Reads validator id formula) (mirrors : Mirrors core world)
    (left : world.left = validator.state) (related : world.ids id other)
    (resolves : Resolves world.right other target) (inside : target ∈ visited)
    (explored : ∀ branch ∈ visited, Expanded world.right visited branch) :
    Tree world.right other formula := by
  induction formula using Formula.of_parts generalizing validator world id other target with
  | leaf resolved =>
      cases reads with
      | leaf ran found single =>
          obtain ⟨next, left', right', mirrors', pair⟩ := mirrors.resolved left related ran resolves
          rw [← left'] at found
          rw [← right'] at resolves ⊢
          have plain := mirrors'.own _ _ found (Node.not_union single)
          cases mirrors'.linked.functional _ _ _ pair plain
          obtain ⟨_, otherNode, found', there, same⟩ := mirrors'.linked.nodes _ _ pair
          cases found.symm.trans found'
          exact .leaf resolves there fun combines => single (same.combines.mpr combines)
  | compound formula compound ih =>
      have each {after : Validator} {resolved : SchemaId} {node : Node} {members : List SchemaId}
          (ran : validator.resolve id = (.ok resolved, after))
          (found : after.state.arena.get? resolved = some node)
          (combines : node = .union members ∨ node = .intersection members)
          (reads : ReadsEach after members formula.parts) :
          ∃ otherNode others, world.right.arena.get? target = some otherNode ∧
            (node = .union members → otherNode = .union others) ∧
            (node = .intersection members → otherNode = .intersection others) ∧
            List.Forall₂ (Tree world.right) others formula.parts := by
        obtain ⟨next, left', right', mirrors', pair⟩ := mirrors.resolved left related ran resolves
        rw [← left'] at found
        rw [← right'] at resolves explored ⊢
        obtain ⟨_, otherNode, found', there, same⟩ := mirrors'.linked.nodes _ _ pair
        cases found.symm.trans found'
        have parts {others : List SchemaId} (related : List.Forall₂ next.ids members others)
            (kind : otherNode = .union others ∨ otherNode = .intersection others) :
            List.Forall₂ (Tree next.right) others formula.parts := by
          refine forall₂_across related reads.forall₂ fun member other part listed part_listed pair here => ?_
          obtain ⟨onward, onward_inside, leads⟩ :=
            Expanded.member_mem (explored target inside) there kind listed
          exact ih part part_listed here mirrors' left' pair leads onward_inside explored
        rcases combines with rfl | rfl
        · cases same with
          | plain plain => exact plain.elim
          | union related => exact ⟨_, _, there, fun _ => rfl, nofun, parts related (.inl rfl)⟩
        · cases same with
          | plain plain => exact plain.elim
          | intersection related => exact ⟨_, _, there, nofun, fun _ => rfl, parts related (.inr rfl)⟩
      cases reads with
      | leaf _ _ _ => exact compound.elim
      | union ran found reads =>
          obtain ⟨_, _, there, kind, -, trees⟩ := each ran found (.inl rfl) reads
          cases kind rfl
          exact .union resolves there trees
      | intersection ran found reads =>
          obtain ⟨_, _, there, -, kind, trees⟩ := each ran found (.inr rfl) reads
          cases kind rfl
          exact .intersection resolves there trees

theorem Mirrors.same {left right : ResolverState} (sound : left.Sound core)
    (sound' : right.Sound core) (grown : left ≤ right) : Mirrors core (.same left right) :=
  ⟨.same sound sound' grown, fun _ _ found _ => ⟨rfl, Arena.index_lt_size found⟩⟩

theorem Reads.present (reads : Reads validator id formula) : validator.Issued id := by
  cases reads with
  | leaf ran _ _ => exact resolve_present (of_perform ran)
  | union ran _ _ => exact resolve_present (of_perform ran)
  | intersection ran _ _ => exact resolve_present (of_perform ran)

theorem Reads.combines (reads : Reads validator id formula) (compound : formula.IsCompound)
    (mirrors : Mirrors core world) (left : world.left = validator.state)
    (related : world.ids id other) (resolves : Resolves world.right other target) {node : Node}
    (found : world.right.arena.get? target = some node) : node.Combines := by
  have kept {after : Validator} {resolved : SchemaId} {readNode : Node}
      (ran : validator.resolve id = (.ok resolved, after))
      (here : after.state.arena.get? resolved = some readNode) (combines : readNode.Combines) :
      node.Combines := by
    obtain ⟨next, left', right', mirrors', pair⟩ := mirrors.resolved left related ran resolves
    obtain ⟨_, _, found', there, same⟩ := mirrors'.linked.nodes _ _ pair
    rw [left'] at found'
    rw [right'] at there
    cases here.symm.trans found'
    cases found.symm.trans there
    exact same.combines.mp combines
  cases reads with
  | leaf _ _ _ => exact compound.elim
  | union ran here _ => exact kept ran here trivial
  | intersection ran here _ => exact kept ran here trivial

/-- A check that adds nothing knows what all members resolve to. -/
theorem Reads.tree_of_yields {steps : Nat} {options : Options} {value : Value} {outcome : Outcome}
    {checkPart : Value → SchemaId → Run Outcome}
    (parts : ∀ part id, Stable core (checkPart part id)) (reads : Reads validator id formula)
    (compound : formula.IsCompound) (mirrors : Mirrors core world)
    (left : world.left = validator.state) (related : world.ids id other)
    (yields : Yields (checkWithin options checkPart value steps other) world.right outcome) :
    Tree world.right other formula := by
  have sound := mirrors.linked.right
  obtain ⟨fewer, target, node, fields, -, resolves, found, known, -⟩ :=
    checkWithin_examines parts sound yields
  have combines := reads.combines compound mirrors left related resolves found
  obtain ⟨visited, start, again, inside, explored, -⟩ := sound.foreign target fields (known combines)
  cases Lasts.unique again (resolves.again sound)
  exact reads.tree mirrors left related resolves inside fun branch listed => (explored branch listed).1

end Validator

end Conform
