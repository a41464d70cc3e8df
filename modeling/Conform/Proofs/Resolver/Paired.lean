import Conform.Proofs.Resolver.Flattening
import Conform.Proofs.Run.Pairing

/-! Two resolutions side by side.  Each step does the same with related nodes, as soon as the recursive
calls do, in every world from the one on in which they are made. -/

namespace Conform.Resolver

open Run

variable (pairing : Pairing) {world : pairing.World} {id other : SchemaId}

theorem anyUndefined_paired {members others : List SchemaId}
    (related : List.Forall₂ (pairing.ids world) members others) :
    pairing.Same world (anyUndefined members) (anyUndefined others) := by
  induction related with
  | nil => exact pairing.same false
  | cons here _ ih =>
      refine pairing.bind (pairing.node here) ?_
      rintro node otherNode _ - ⟨rfl, same⟩
      cases same with
      | plain plain =>
          split
          · exact pairing.same true
          · exact ih
      | _ => exact ih

theorem includesUndefined_paired (related : pairing.ids world id other) :
    pairing.Same world (includesUndefined id) (includesUndefined other) := by
  refine pairing.bind (pairing.node related) ?_
  rintro node otherNode _ - ⟨rfl, same⟩
  cases same with
  | @plain node plain => cases node <;> first | exact plain.elim | exact pairing.same false
  | union members => exact anyUndefined_paired pairing members
  | _ => exact pairing.same false

theorem closeChain_paired (related : pairing.ids world id other) :
    pairing.SameId world (closeChain id) (closeChain other) := by
  refine pairing.bind (pairing.node related) ?_
  rintro node otherNode _ - ⟨rfl, same⟩
  cases same with
  | @plain node plain =>
      cases node <;> first | exact plain.elim | exact pairing.pure related | exact pairing.fail _
  | indexedAccess _ index => exact pairing.fail _
  | _ => exact pairing.pure related

theorem ofExcept_paired {outcome otherOutcome : Except SchemaError Shape}
    (picked : Shape.PickRelated (pairing.ids world) outcome otherOutcome) :
    pairing.SameShape world (Run.ofExcept outcome) (Run.ofExcept otherOutcome) := by
  cases picked with
  | ok related => exact pairing.pure related
  | error error => exact pairing.fail error

section

variable {start : pairing.World} {resolve resolveOther : SchemaId → Run SchemaId}
  {flatten flattenOther : SchemaId → Run Shape}
  (resolves : ∀ {world id other}, pairing.Extends start world → pairing.ids world id other →
    pairing.SameId world (resolve id) (resolveOther other))
  (flattens : ∀ {world id other}, pairing.Extends start world → pairing.ids world id other →
    pairing.SameShape world (flatten id) (flattenOther other))
  (since : pairing.Extends start world)

include resolves flattens since

theorem inheritParents_paired {shape otherShape : Shape} {parents otherParents : List SchemaId}
    (shapes : Shape.Related (pairing.ids world) shape otherShape)
    (related : List.Forall₂ (pairing.ids world) parents otherParents) :
    pairing.SameShape world (inheritParents resolve flatten shape parents)
      (inheritParents resolveOther flattenOther otherShape otherParents) := by
  induction parents generalizing world shape otherShape otherParents with
  | nil =>
      cases related
      exact pairing.pure shapes
  | cons parent rest ih =>
      obtain ⟨otherParent, otherRest, here, rest_related, rfl⟩ := List.forall₂_cons_left_iff.mp related
      refine pairing.bind (resolves since here) fun resolved otherResolved middle grown pair => ?_
      refine pairing.bind (pairing.node pair) ?_
      rintro node otherNode _ - ⟨rfl, same⟩
      cases same with
      | interface _ _ _ =>
          have onward := pairing.trans since grown
          refine pairing.bind (flattens onward pair) fun inherited otherInherited last grown' parents => ?_
          have into (id other : SchemaId) (pair : pairing.ids world id other) : pairing.ids last id other :=
            pairing.widen grown' _ _ (pairing.widen grown _ _ pair)
          exact ih (pairing.trans onward grown') ((shapes.imp into).inherit parents) (rest_related.imp into)
      | @plain node plain => cases node <;> first | exact plain.elim | exact pairing.fail _
      | mapped combinators _ =>
          simp only [Node.kind, combinators.kind]
          exact pairing.fail _
      | _ => exact pairing.fail _

theorem shapeBehind_paired (reject : Kind → SchemaError) (related : pairing.ids world id other) :
    pairing.SameShape world (shapeBehind resolve flatten reject id)
      (shapeBehind resolveOther flattenOther reject other) := by
  refine pairing.bind (resolves since related) fun resolved otherResolved middle grown pair => ?_
  refine pairing.bind (pairing.node pair) ?_
  rintro node otherNode _ - ⟨rfl, same⟩
  rw [← same.interfaceLike, ← same.kind]
  split
  · exact flattens (pairing.trans since grown) pair
  · exact pairing.fail _

theorem flattenTarget_paired {combinator otherCombinator : Combinator}
    (combinators : Combinator.Related (pairing.ids world) combinator otherCombinator)
    (related : pairing.ids world id other) :
    pairing.SameShape world (flattenTarget resolve flatten combinator id)
      (flattenTarget resolveOther flattenOther otherCombinator other) := by
  rw [flattenTarget_eq, flattenTarget_eq, ← combinators.kind]
  exact shapeBehind_paired pairing resolves flattens since _ related

omit resolves in
theorem combine_paired {shape otherShape : Shape} {combinator otherCombinator : Combinator}
    (combinators : Combinator.Related (pairing.ids world) combinator otherCombinator)
    (shapes : Shape.Related (pairing.ids world) shape otherShape) :
    pairing.SameShape world (combine flatten shape combinator)
      (combine flattenOther otherShape otherCombinator) := by
  cases combinators with
  | pick keys => exact ofExcept_paired pairing (shapes.pick keys)
  | optional => exact pairing.pure shapes.allOptional
  | without keys => exact pairing.pure (shapes.without keys)
  | overwrite patches =>
      refine pairing.bind (flattens since patches) fun top otherTop later grown tops => ?_
      exact pairing.pure ((shapes.imp (pairing.widen grown)).overwrite tops)

theorem flattenNode_paired (related : pairing.ids world id other) :
    pairing.SameShape world (flattenNode resolve flatten id) (flattenNode resolveOther flattenOther other) := by
  refine pairing.bind (pairing.node related) ?_
  rintro node otherNode _ - ⟨rfl, same⟩
  have onward := shapeBehind_paired pairing resolves flattens since .notInterfaceLike related
  cases same with
  | @plain node plain =>
      cases node <;> first | exact plain.elim | exact pairing.fail _ | exact onward
  | indexedAccess _ _ => exact onward
  | interface declared signed inherited =>
      exact inheritParents_paired pairing resolves flattens since (Shape.own_related declared signed) inherited
  | mapped combinators targets =>
      refine pairing.bind (flattenTarget_paired pairing resolves flattens since combinators targets) ?_
      rintro base otherBase later grown bases
      exact combine_paired pairing flattens (pairing.trans since grown) (combinators.imp (pairing.widen grown)) bases
  | _ => exact pairing.fail _

end

/-- The same combinators, on related members. -/
structure WalkRelated (ids : SchemaId → SchemaId → Prop)
    (walked otherWalked : CombinatorChain × List SchemaId) : Prop where
  combinators : List.Forall₂ (Combinator.Related ids) walked.1.toList otherWalked.1.toList
  members : List.Forall₂ ids walked.2 otherWalked.2

/-- With the same budget on both sides. -/
theorem walkChain_paired {resolve resolveOther : SchemaId → Run SchemaId}
    (resolves : ∀ {world id other}, pairing.ids world id other →
      pairing.SameId world (resolve id) (resolveOther other)) (limit budget : Nat)
    {chain otherChain : CombinatorChain}
    (chains : List.Forall₂ (Combinator.Related (pairing.ids world)) chain.toList otherChain.toList)
    (related : pairing.ids world id other) :
    pairing.Related world (walkChain limit resolve budget chain id)
      (walkChain limit resolveOther budget otherChain other)
      fun walked otherWalked later => Option.Rel (WalkRelated (pairing.ids later)) walked otherWalked := by
  induction budget generalizing world chain otherChain id other with
  | zero => exact pairing.fail _
  | succ budget ih =>
      refine pairing.bind (resolves related) fun resolved otherResolved middle grown pair => ?_
      refine pairing.bind (pairing.node pair) ?_
      rintro node otherNode _ - ⟨rfl, same⟩
      have chains := chains.imp fun _ _ => Combinator.Related.imp (pairing.widen grown)
      have innermost : chain.innermost.kind = otherChain.innermost.kind :=
        (List.forall₂_cons.mp chains).1.kind
      cases same with
      | union members => exact pairing.pure (.some ⟨chains, members⟩)
      | interface _ _ _ => exact pairing.pure .none
      | mapped combinators targets => exact ih (.cons combinators chains) targets
      | @plain node plain =>
          cases node <;> first | exact plain.elim | (rw [innermost]; exact pairing.fail _)
      | _ =>
          rw [innermost]
          exact pairing.fail _

end Conform.Resolver
