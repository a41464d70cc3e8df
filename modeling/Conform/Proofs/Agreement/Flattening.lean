import Conform.Proofs.Agreement.Following

/-! Shapes side by side.  A shape is computed from shapes of nodes that are in
the core or come earlier; a condition on worlds that such shapes leave intact is
carried from one part of the computation to the next. -/

namespace Conform.Agreement

open Run Resolver

variable {core bound : Nat} {excuse : Prop} {frame : World → Prop} {world : World}
  {id other target otherTarget : SchemaId} {shape otherShape : Shape}
  {resolve resolveOther : SchemaId → Run SchemaId} {flatten flattenOther : SchemaId → Run Shape}

/-- What the parts of a computation do, as far as they are used for a node at the
bound. -/
structure Parts (core : Nat) (excuse : Prop) (bound : Nat) (frame : World → Prop)
    (resolve resolveOther : SchemaId → Run SchemaId) (flatten flattenOther : SchemaId → Run Shape) :
    Prop where
  resolves : ResolveAgrees core excuse resolve resolveOther
  meets : ResolveMeets core resolveOther
  flattens : ∀ world id other, world.Linked core → frame world → world.ids id other →
    other.Within core bound → Agrees core excuse world (flatten id) (flattenOther other)
      fun shape otherShape next => Shape.Related next.ids shape otherShape ∧
        Bounded core bound world.right next.right
  keeps : ∀ world next, frame world → world.Extends next → next.Linked core →
    Bounded core bound world.right next.right → frame next

/-- The next node to look at, with the bound that is kept on the way. -/
theorem Parts.resolve_agrees
    (parts : Parts core excuse bound frame resolve resolveOther flatten flattenOther)
    (linked : world.Linked core) (framed : frame world) (related : world.ids id other)
    (early : other.index ≤ bound) :
    Agrees core excuse world (resolve id) (resolveOther other) fun resolved otherResolved next =>
      next.ids resolved otherResolved ∧ frame next ∧ Leads core (other.index + 1) next.right otherResolved ∧
        Bounded core bound world.right next.right := by
  refine ((parts.resolves world id other linked related).and_right
    (parts.meets other world.right linked.right)).imp ?_
  intro resolved otherResolved next grown linked' post
  obtain ⟨pair, _, _, leads, bounded⟩ := post
  have bounded' := bounded.widen (.inl early)
  exact ⟨pair, parts.keeps _ _ framed grown linked' bounded', leads, bounded'⟩

theorem shapeBehind_agrees
    (parts : Parts core excuse bound frame resolve resolveOther flatten flattenOther)
    (linked : world.Linked core) (framed : frame world) (reject : Kind → SchemaError)
    (related : world.ids id other) (early : other.index ≤ bound)
    (leadsWithin : LeadsWithin core bound world.right other) :
    Agrees core excuse world (shapeBehind resolve flatten reject id)
      (shapeBehind resolveOther flattenOther reject other) fun shape otherShape next =>
        Shape.Related next.ids shape otherShape ∧ frame next := by
  refine .bind (parts.resolve_agrees linked framed related early) ?_
  rintro resolved otherResolved first grown linked₁ ⟨pair, framed₁, leads, -⟩
  refine .bind (.node linked₁ pair) ?_
  rintro node otherNode _ - - ⟨found, found', same, rfl⟩
  rw [← same.interfaceLike, ← same.kind]
  cases like : node.isInterfaceLike with
  | false => exact .fail
  | true =>
      have within := leadsWithin _ _ _ grown.right leads found' (same.interfaceLike.symm.trans like)
      simp only [if_true]
      refine (parts.flattens first _ _ linked₁ framed₁ pair within).imp ?_
      intro shape otherShape next grown' linked₂ post
      obtain ⟨shapes, bounded⟩ := post
      exact ⟨shapes, parts.keeps _ _ framed₁ grown' linked₂ bounded⟩

theorem flattenTarget_agrees
    (parts : Parts core excuse bound frame resolve resolveOther flatten flattenOther)
    (linked : world.Linked core) (framed : frame world) {combinator otherCombinator : Combinator}
    (combinators : Combinator.Related world.ids combinator otherCombinator)
    (related : world.ids id other) (early : other.index < bound) :
    Agrees core excuse world (flattenTarget resolve flatten combinator id)
      (flattenTarget resolveOther flattenOther otherCombinator other) fun shape otherShape next =>
        Shape.Related next.ids shape otherShape ∧ frame next := by
  rw [flattenTarget_eq, flattenTarget_eq, ← combinators.kind]
  exact shapeBehind_agrees parts linked framed _ related (Nat.le_of_lt early) (.of_early early _)

theorem inheritParents_agrees
    (parts : Parts core excuse bound frame resolve resolveOther flatten flattenOther)
    (linked : world.Linked core) (framed : frame world) {parents otherParents : List SchemaId}
    (related : List.Forall₂ world.ids parents otherParents)
    (early : ∀ other ∈ otherParents, other.index < bound)
    (shapes : Shape.Related world.ids shape otherShape) :
    Agrees core excuse world (inheritParents resolve flatten shape parents)
      (inheritParents resolveOther flattenOther otherShape otherParents)
      fun shape otherShape next => Shape.Related next.ids shape otherShape := by
  induction parents generalizing otherParents shape otherShape world with
  | nil =>
      cases related
      exact .pure linked shapes
  | cons parent rest ih =>
      obtain ⟨otherParent, otherRest, here, rest_related, rfl⟩ := List.forall₂_cons_left_iff.mp related
      have first_early := early otherParent (List.mem_cons_self ..)
      refine .bind (parts.resolve_agrees linked framed here (Nat.le_of_lt first_early)) ?_
      rintro resolved otherResolved first grown linked₁ ⟨pair, framed₁, leads, -⟩
      refine .bind (.node linked₁ pair) ?_
      rintro node otherNode _ - - ⟨found, found', same, rfl⟩
      cases same with
      | interface declared signed inherited =>
          have within : otherResolved.Within core bound :=
            Within.widen (leads.interfaceLike found' rfl) (.inl first_early)
          refine .bind (parts.flattens first _ _ linked₁ framed₁ pair within) ?_
          rintro inherited otherInherited second grown' linked₂ ⟨parent_shapes, bounded⟩
          have into (id other : SchemaId) (pair : world.ids id other) : second.ids id other :=
            grown'.ids _ _ (grown.ids _ _ pair)
          exact ih linked₂ (parts.keeps _ _ framed₁ grown' linked₂ bounded) (rest_related.imp into)
            (fun other listed => early other (List.mem_cons_of_mem _ listed))
            ((shapes.imp into).inherit parent_shapes)
      | @plain node plain =>
          cases node <;> first | exact plain.elim | exact .fail
      | mapped combinators targets =>
          have same_kind := combinators.kind
          simp only [Node.kind, same_kind]
          exact .fail
      | _ => exact .fail

theorem ofExcept_agrees (linked : world.Linked core) {outcome otherOutcome : Except SchemaError Shape}
    (picked : Shape.PickRelated world.ids outcome otherOutcome) :
    Agrees core excuse world (Run.ofExcept outcome) (Run.ofExcept otherOutcome)
      fun shape otherShape next => Shape.Related next.ids shape otherShape := by
  cases picked with
  | ok related => exact .pure linked related
  | error error => exact .fail

theorem combine_agrees
    (parts : Parts core excuse bound frame resolve resolveOther flatten flattenOther)
    (linked : world.Linked core) (framed : frame world) {combinator otherCombinator : Combinator}
    (combinators : Combinator.Related world.ids combinator otherCombinator)
    (early : ∀ patch ∈ otherCombinator.children, patch.index < bound)
    (shapes : Shape.Related world.ids shape otherShape) :
    Agrees core excuse world (combine flatten shape combinator)
      (combine flattenOther otherShape otherCombinator)
      fun shape otherShape next => Shape.Related next.ids shape otherShape := by
  cases combinators with
  | pick keys =>
      exact ofExcept_agrees linked (shapes.pick keys)
  | optional => exact .pure linked shapes.allOptional
  | without keys => exact .pure linked (shapes.without keys)
  | overwrite patches =>
      have within := early _ (List.mem_singleton_self _)
      refine .bind (parts.flattens world _ _ linked framed patches (.inr within)) ?_
      rintro top otherTop next grown linked' ⟨tops, -⟩
      exact .pure linked' ((shapes.imp grown.ids).overwrite tops)

theorem flattenNode_agrees
    (parts : Parts core excuse other.index frame resolve resolveOther flatten flattenOther)
    (linked : world.Linked core) (framed : frame world) (related : world.ids id other) :
    Agrees core excuse world (flattenNode resolve flatten id)
      (flattenNode resolveOther flattenOther other)
      fun shape otherShape next => Shape.Related next.ids shape otherShape := by
  refine .bind (.node linked related) ?_
  rintro node otherNode _ - - ⟨found, found', same, rfl⟩
  have earlier := linked.right.ordered other otherNode found'
  have onward (open_ : ¬ otherNode.IsConcrete) :=
    (shapeBehind_agrees parts linked framed .notInterfaceLike related (Nat.le_refl _)
      (.of_link found' open_)).imp fun _ _ _ _ _ post => post.1
  cases same with
  | interface declared signed inherited =>
      refine inheritParents_agrees parts linked framed inherited (fun other listed => ?_)
        (Shape.own_related declared signed)
      exact earlier other (by simp [Node.children, listed])
  | mapped combinators targets =>
      refine .bind (flattenTarget_agrees parts linked framed combinators targets
        (earlier _ (by simp [Node.children]))) ?_
      rintro shape otherShape next grown linked' ⟨shapes, framed'⟩
      exact combine_agrees parts linked' framed' (combinators.imp grown.ids)
        (fun patch listed => earlier patch (List.mem_cons_of_mem _ listed)) shapes
  | indexedAccess objects index => exact onward fun concrete => concrete
  | @plain node plain =>
      cases node <;> first | exact plain.elim | exact .fail | exact onward fun concrete => concrete
  | _ => exact .fail

end Conform.Agreement
