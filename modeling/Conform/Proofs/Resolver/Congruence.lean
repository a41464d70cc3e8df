import Conform.Proofs.Resolver.Distributing
import Conform.Proofs.Run.Congruence
import Conform.Resolver.Basic

/-! Two resolutions whose recursive calls are related are related, in every relation that
sequences respect and that each single step has to itself.  How the calls are bounded does not
matter here: where the bounds act, a development has its own lemma. -/

namespace Conform

open Run

/-- Each single step is related to itself, apart from the one that remembers foreign fields. -/
structure Run.Congruence.Steps (congruence : Congruence) : Prop where
  fail : ∀ {α : Type} (error : SchemaError),
    congruence.Related (Run.fail error : Run α) (Run.fail error)
  read : ∀ {α : Type} (part : ResolverState → α),
    congruence.Related (Run.read part) (Run.read part)
  node : ∀ id, congruence.Related (Run.node id) (Run.node id)
  alloc : ∀ {node : Node}, node.IsConcrete → congruence.Related (Run.alloc node) (Run.alloc node)
  keepShape : ∀ id shape, congruence.Related (keepShape id shape) (keepShape id shape)
  keepProjection : ∀ id projected,
    congruence.Related (keepProjection id projected) (keepProjection id projected)
  keepDistribution : ∀ id union,
    congruence.Related (keepDistribution id union) (keepDistribution id union)

namespace Resolver

variable {congruence : Congruence} (steps : congruence.Steps)

include steps

theorem lookupTarget_related (target : String) :
    congruence.Related (lookupTarget target) (lookupTarget target) := by
  unfold lookupTarget
  split
  · exact steps.fail _
  · refine congruence.bind (steps.read _) fun symbol => ?_
    cases symbol with
    | some id => exact congruence.pure id
    | none => exact steps.fail _

theorem includesUndefined_related (type : SchemaId) :
    congruence.Related (includesUndefined type) (includesUndefined type) := by
  have members (ids : List SchemaId) : congruence.Related (anyUndefined ids) (anyUndefined ids) := by
    induction ids with
    | nil => exact congruence.pure false
    | cons id rest ih =>
        refine congruence.bind (steps.node id) fun node => ?_
        split
        · exact congruence.pure true
        · exact ih
  refine congruence.bind (steps.node type) fun node => ?_
  cases node with
  | union ids => exact members ids
  | _ => exact congruence.pure false

theorem projectShape_related (shape : Shape) (index : String) :
    congruence.Related (projectShape shape index) (projectShape shape index) := by
  unfold projectShape
  split
  · split
    · refine congruence.bind (includesUndefined_related steps _) fun included => ?_
      split
      · exact congruence.pure _
      · exact steps.alloc trivial
    · exact congruence.pure _
  · split
    · exact congruence.pure _
    · exact steps.fail _

theorem unlessKnown_related {compute compute' : Run Shape} (chain : List SchemaId) (id : SchemaId)
    (computes : congruence.Related compute compute') :
    congruence.Related (unlessKnown chain id compute) (unlessKnown chain id compute') := by
  refine congruence.bind (steps.read _) fun known => ?_
  cases known with
  | some shape => exact congruence.pure shape
  | none =>
      dsimp only
      split
      · exact steps.fail _
      · exact computes

section

variable {resolve resolve' : SchemaId → Run SchemaId} {flatten flatten' : SchemaId → Run Shape}
  (resolves : ∀ id, congruence.Related (resolve id) (resolve' id))
  (flattens : ∀ id, congruence.Related (flatten id) (flatten' id))

include resolves flattens

theorem project_related (id object : SchemaId) (index : String) :
    congruence.Related (project resolve flatten id object index)
      (project resolve' flatten' id object index) := by
  refine congruence.bind (steps.read _) fun known => ?_
  cases known with
  | some projected => exact congruence.pure projected
  | none =>
      refine congruence.bind (resolves object) fun target =>
        congruence.bind (steps.node target) fun node => ?_
      split
      · refine congruence.bind (flattens target) fun shape => ?_
        exact congruence.bind (projectShape_related steps shape index) fun projected =>
          steps.keepProjection id projected
      · exact steps.fail _

theorem inheritParents_related (shape : Shape) (parents : List SchemaId) :
    congruence.Related (inheritParents resolve flatten shape parents)
      (inheritParents resolve' flatten' shape parents) := by
  induction parents generalizing shape with
  | nil => exact congruence.pure shape
  | cons parent rest ih =>
      refine congruence.bind (resolves parent) fun resolved =>
        congruence.bind (steps.node resolved) fun node => ?_
      cases node with
      | interface properties index parents =>
          exact congruence.bind (flattens resolved) fun inherited => ih _
      | _ => exact steps.fail _

theorem shapeBehind_related (reject : Kind → SchemaError) (target : SchemaId) :
    congruence.Related (shapeBehind resolve flatten reject target) (shapeBehind resolve' flatten' reject target) := by
  refine congruence.bind (resolves target) fun resolved =>
    congruence.bind (steps.node resolved) fun node => ?_
  split
  · exact flattens resolved
  · exact steps.fail _

theorem flattenNode_related (id : SchemaId) :
    congruence.Related (flattenNode resolve flatten id) (flattenNode resolve' flatten' id) := by
  refine congruence.bind (steps.node id) fun node => ?_
  cases node with
  | reference _ | indexedAccess _ _ => exact shapeBehind_related steps resolves flattens .notInterfaceLike id
  | interface properties index parents =>
      exact inheritParents_related steps resolves flattens _ parents
  | mapped combinator target =>
      refine congruence.bind (shapeBehind_related steps resolves flattens
        (.invalidCombinatorTarget combinator.kind) target) fun base => ?_
      cases combinator with
      | pick keys =>
          dsimp only
          cases base.pick keys with
          | ok picked => exact congruence.pure picked
          | error error => exact steps.fail error
      | optional | without keys => exact congruence.pure _
      | overwrite patch => exact congruence.bind (flattens patch) fun _ => congruence.pure _
  | _ => exact steps.fail _

end

theorem closeChain_related (id : SchemaId) : congruence.Related (closeChain id) (closeChain id) := by
  refine congruence.bind (steps.node id) fun node => ?_
  cases node with
  | reference _ | indexedAccess _ _ => exact steps.fail _
  | _ => exact congruence.pure id

section

variable {project project' : SchemaId → SchemaId → String → Run SchemaId}
  (projects : ∀ id object index, congruence.Related (project id object index) (project' id object index))

include projects

theorem hop_related (id : SchemaId) : congruence.Related (hop project id) (hop project' id) := by
  refine congruence.bind (steps.node id) fun node => ?_
  cases node with
  | reference name =>
      exact congruence.bind (lookupTarget_related steps name) fun _ => congruence.pure _
  | indexedAccess object index =>
      exact congruence.bind (projects id object index) fun _ => congruence.pure _
  | _ => exact congruence.pure none

/-- With the same number of hops on both sides. -/
theorem follow_related (hops : Nat) (visited : List SchemaId) (current : SchemaId) :
    congruence.Related (follow project hops visited current)
      (follow project' hops visited current) := by
  induction hops generalizing visited current with
  | zero => exact closeChain_related steps current
  | succ hops ih =>
      simp only [follow]
      split
      · exact closeChain_related steps current
      · refine congruence.bind (hop_related steps projects current) fun next => ?_
        cases next with
        | some next => exact ih _ next
        | none => exact congruence.pure current

end

theorem applyCombinators_related (combinators : List Combinator) (target : SchemaId) :
    congruence.Related (applyCombinators combinators target)
      (applyCombinators combinators target) := by
  induction combinators generalizing target with
  | nil => exact congruence.pure target
  | cons combinator outer ih => exact congruence.bind (steps.alloc trivial) ih

theorem applyToEach_related (combinators : List Combinator) (members : List SchemaId) :
    congruence.Related (applyToEach combinators members) (applyToEach combinators members) := by
  induction members with
  | nil => exact congruence.pure []
  | cons member rest ih =>
      exact congruence.bind (applyCombinators_related steps combinators member) fun _ =>
        congruence.bind ih fun _ => congruence.pure _

theorem distributeTail_related (id : SchemaId) (combinators : List Combinator)
    (members : List SchemaId) :
    congruence.Related (distributeTail id combinators members)
      (distributeTail id combinators members) := by
  refine congruence.bind (applyToEach_related steps combinators members) fun _ => ?_
  refine congruence.bind (steps.alloc trivial) fun union => ?_
  exact congruence.bind (steps.keepDistribution id union) fun _ => congruence.pure _

theorem within_self (limit left : Nat) :
    (∀ id, congruence.Related (resolveWithin limit left id) (resolveWithin limit left id)) ∧
      ∀ chain id, congruence.Related (flattenWithin limit left chain id)
        (flattenWithin limit left chain id) := by
  induction left with
  | zero => exact ⟨fun _ => steps.fail _, fun chain id => unlessKnown_related steps chain id (steps.fail _)⟩
  | succ left ih =>
      obtain ⟨resolves, flattens⟩ := ih
      refine ⟨fun id => congruence.bind (steps.read _) fun hops => ?_, fun chain id => ?_⟩
      · exact follow_related steps (project_related steps resolves (flattens [])) hops [] id
      · refine unlessKnown_related steps chain id (congruence.bind ?_ fun shape => steps.keepShape id shape)
        exact flattenNode_related steps resolves (flattens (id :: chain)) id

theorem walkChain_related {limit : Nat} {resolve resolve' : SchemaId → Run SchemaId}
    (resolves : ∀ id, congruence.Related (resolve id) (resolve' id)) (budget : Nat)
    (chain : CombinatorChain) (target : SchemaId) :
    congruence.Related (walkChain limit resolve budget chain target)
      (walkChain limit resolve' budget chain target) := by
  induction budget generalizing chain target with
  | zero => exact steps.fail _
  | succ budget ih =>
      refine congruence.bind (resolves target) fun resolved =>
        congruence.bind (steps.node resolved) fun node => ?_
      cases node with
      | union _ | interface _ _ _ => exact congruence.pure _
      | mapped combinator inner => exact ih _ inner
      | _ => exact steps.fail _

theorem distributeWithin_self (limit left : Nat) (id : SchemaId) :
    congruence.Related (distributeWithin limit left id) (distributeWithin limit left id) := by
  unfold distributeWithin
  refine congruence.bind (steps.read _) fun known => ?_
  cases known with
  | some union => exact congruence.pure _
  | none =>
      cases left with
      | zero => exact steps.fail _
      | succ left =>
          refine congruence.bind (steps.node id) fun node => ?_
          cases node with
          | mapped combinator target =>
              refine congruence.bind (walkChain_related steps (within_self steps limit left).1 limit _ target)
                fun walked => ?_
              cases walked with
              | none => exact congruence.pure none
              | some walked => exact distributeTail_related steps id walked.1.toList walked.2
          | _ => exact congruence.pure none

theorem collectWithin_self (limit left : Nat) (collected : Collected) (ids : List SchemaId) :
    congruence.Related (collectWithin limit left collected ids) (collectWithin limit left collected ids) := by
  induction left generalizing collected ids with
  | zero => exact steps.fail _
  | succ left ih =>
      refine congruence.foldlM (fun collected id _ =>
        congruence.bind ((within_self steps limit left).1 id) fun resolved => ?_) _
      split
      · exact congruence.pure _
      · refine congruence.bind (steps.node resolved) fun node => ?_
        cases node with
        | union members | intersection members => exact ih _ members
        | interface _ _ _ | mapped _ _ =>
            refine congruence.bind (distributeWithin_self steps limit left resolved) fun union => ?_
            cases union with
            | some union => exact ih _ [union]
            | none => exact congruence.bind ((within_self steps limit left).2 [] resolved) fun _ =>
                congruence.pure _
        | _ => exact congruence.pure _

end Resolver

end Conform
