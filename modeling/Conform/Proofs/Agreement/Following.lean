import Conform.Proofs.Agreement.Projecting

/-! Chains side by side.  The two states differ in size, so the two runs have
different numbers of hops left.  Neither number ends a chain early: the nodes on
a chain are no concrete ones, and resolution adds none of those. -/

namespace Conform.Agreement

open Run Resolver

variable {core : Nat} {excuse : Prop} {world : World} {state after : ResolverState}
  {size hops : Nat} {visited : List SchemaId} {id other : SchemaId}

/-- A node that leads on is its own counterpart. -/
theorem World.Linked.eq_of_open {node otherNode : Node} (linked : world.Linked core)
    (related : world.ids id other) (found : world.right.arena.get? other = some otherNode)
    (same : Node.Related world.ids node otherNode) (open_ : ¬ node.IsConcrete) : id = other := by
  rcases linked.fibre id other related with equal | synthetic
  · exact equal
  · have open' : ¬ otherNode.IsConcrete := fun concrete => open_ (same.concrete.mpr concrete)
    obtain ⟨node', found', added⟩ := synthetic.added
    cases found.symm.trans found'
    rcases added with mapped | ⟨type, rfl⟩ | ⟨origin, known⟩
    · cases otherNode <;> first | exact mapped.elim | exact (open' trivial).elim
    · exact (open' trivial).elim
    · obtain ⟨_, union⟩ := linked.right.union_of_distribution known
      cases found.symm.trans union
      exact (open' trivial).elim

section

variable {project projectOther : SchemaId → SchemaId → String → Run SchemaId}

theorem hop_agrees (projects : ProjectAgrees core excuse project projectOther)
    (linked : world.Linked core) (related : world.ids id other) :
    Agrees core excuse world (hop project id) (hop projectOther other) fun next otherNext later =>
      (next = none ∧ otherNext = none ∧ later.ids id other) ∨
        ∃ target otherTarget, next = some target ∧ otherNext = some otherTarget ∧
          later.ids target otherTarget := by
  refine .bind (.node linked related) ?_
  rintro node otherNode _ - - ⟨found, found', same, rfl⟩
  cases same with
  | @plain node plain =>
      cases node with
      | reference target =>
          refine .bind (lookupTarget_agrees linked target) ?_
          rintro next otherNext _ - linked' ⟨pair, rfl⟩
          exact .pure linked' (.inr ⟨_, _, rfl, rfl, pair⟩)
      | _ => first | exact plain.elim | exact .pure linked (.inl ⟨rfl, rfl, related⟩)
  | indexedAccess objects index =>
      refine .bind (projects _ _ _ _ _ _ linked related found found' objects) ?_
      rintro next otherNext middle - linked' pair
      exact .pure linked' (.inr ⟨_, _, rfl, rfl, pair⟩)
  | _ => exact .pure linked (.inl ⟨rfl, rfl, related⟩)

theorem closeChain_agrees {node otherNode : Node} (found : world.left.arena.get? id = some node)
    (found' : world.right.arena.get? other = some otherNode)
    (same : Node.Related world.ids node otherNode) (open_ : ¬ node.IsConcrete)
    {post : SchemaId → SchemaId → World → Prop} :
    Agrees core excuse world (closeChain id) (closeChain other) post := by
  refine .congr_left (.congr_right ?_ (bind_ok (node_apply found'))) (bind_ok (node_apply found))
  cases same with
  | @plain node plain =>
      cases node <;> first | exact plain.elim | exact .fail | exact (open_ trivial).elim
  | indexedAccess objects index => exact .fail
  | _ => exact (open_ trivial).elim

theorem follow_concrete_agrees {node otherNode : Node} {hops' : Nat} (linked : world.Linked core)
    (related : world.ids id other) (found : world.left.arena.get? id = some node)
    (found' : world.right.arena.get? other = some otherNode)
    (same : Node.Related world.ids node otherNode) (concrete : node.IsConcrete) :
    Agrees core excuse world (follow project hops visited id) (follow projectOther hops' visited other)
      fun resolved otherResolved next => next.ids resolved otherResolved :=
  .done (follow_concrete found concrete _ _).now
    (follow_concrete found' (same.concrete.mp concrete) _ _).now (.refl world) linked related

theorem follow_agrees {size' hops' : Nat} (projects : ProjectAgrees core excuse project projectOther)
    (own : ProjectMeets core project) (own' : ProjectMeets core projectOther)
    (linked : world.Linked core) (related : world.ids id other)
    (enough : Enough size hops visited world.left) (enough' : Enough size' hops' visited world.right) :
    Agrees core excuse world (follow project hops visited id) (follow projectOther hops' visited other)
      fun resolved otherResolved next => next.ids resolved otherResolved := by
  induction hops generalizing hops' visited id other world with
  | zero =>
      obtain ⟨node, otherNode, found, found', same⟩ := linked.nodes _ _ related
      by_cases concrete : node.IsConcrete
      · exact follow_concrete_agrees linked related found found' same concrete
      · cases linked.eq_of_open related found' same concrete
        have met : visited.contains id = true := List.elem_iff.mpr (enough.met found concrete)
        rw [follow_met met, follow_met met]
        exact closeChain_agrees found found' same concrete
  | succ hops ih =>
      obtain ⟨node, otherNode, found, found', same⟩ := linked.nodes _ _ related
      by_cases concrete : node.IsConcrete
      · exact follow_concrete_agrees linked related found found' same concrete
      · cases linked.eq_of_open related found' same concrete
        have open' : ¬ otherNode.IsConcrete := fun closed => concrete (same.concrete.mpr closed)
        by_cases met : visited.contains id = true
        · rw [follow_met met, follow_met met]
          exact closeChain_agrees found found' same concrete
        · have unmet : id ∉ visited := fun listed => met (List.elem_iff.mpr listed)
          cases hops' with
          | zero => exact (unmet (enough'.met found' open')).elim
          | succ hops' =>
              rw [follow_unmet met, follow_unmet met]
              have start : id.Within core (id.index + 1) := .inr (Nat.lt_succ_self _)
              refine .bind (((hop_agrees projects linked related).and_left
                (hop_meets own linked.left (.inl start))).and_right
                (hop_meets own' linked.right (.inl start))) ?_
              rintro next otherNext middle grown linked' ⟨⟨hopped, resolving, -⟩, resolving', -⟩
              rcases hopped with ⟨rfl, rfl, pair⟩ | ⟨target, otherTarget, rfl, rfl, pair⟩
              · exact .pure linked' pair
              · exact ih linked' pair ((enough.cons found concrete unmet).later resolving.addsConcrete)
                  ((enough'.cons found' open' unmet).later resolving'.addsConcrete)

end

/-- One step of resolution on each side. -/
theorem resolveStep_agrees {limit limit' steps steps' : Nat}
    (projects : ProjectAgrees core excuse
      (project (resolveWithin limit steps) (flattenWithin limit steps []))
      (project (resolveWithin limit' steps') (flattenWithin limit' steps' []))) :
    ResolveAgrees core excuse (resolveWithin limit (steps + 1)) (resolveWithin limit' (steps' + 1)) := by
  intro world id other linked related
  have follows := follow_agrees projects
    (project_meets (resolveWithin_meets _ _) (flattenWithin_meets _ _ _))
    (project_meets (resolveWithin_meets _ _) (flattenWithin_meets _ _ _)) linked related
    (.start world.left) (.start world.right)
  exact .congr_left (.congr_right follows rfl) rfl

end Conform.Agreement
