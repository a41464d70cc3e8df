import Conform.Proofs.Resolver.Paired
import Conform.Proofs.Twins.Basic

/-! Resolution of twins.  A visited node is met again on both sides or on none, since the nodes correspond
one to one; and the number of nodes, which bounds the hops, never cuts a chain off. -/

namespace Conform.Resolver

open Run

variable {twins : Twins} {id other object otherObject : SchemaId} {shape otherShape : Shape}
  {visited otherVisited : List SchemaId}

theorem lookupTarget_twins {target : String} (pair : twins.ids id other)
    (found : twins.left.arena.get? id = some (.reference target)) :
    twinning.SameId twins (lookupTarget target) (lookupTarget target) := by
  unfold lookupTarget
  cases wellFormed : Address.ofTarget? target with
  | none => exact .fail rfl
  | some address =>
      refine InStep.bind (.read _ _) ?_
      rintro _ _ _ - ⟨rfl, rfl, rfl⟩
      rcases Shape.rel_cases (twins.targets pair found wellFormed) with
        ⟨missing, missing'⟩ | ⟨_, _, defined, defined', pair⟩
      · rw [missing, missing']
        exact .fail rfl
      · rw [defined, defined']
        exact .pure pair

theorem projectShape_twins (shapes : Shape.Related twins.ids shape otherShape) (index : String) :
    twinning.SameId twins (projectShape shape index) (projectShape otherShape index) := by
  unfold projectShape Shape.property?
  rcases Shape.rel_cases (Shape.findProperty_related shapes.properties index) with
    ⟨undeclared, undeclared'⟩ | ⟨property, otherProperty, declared, declared', here⟩
  · rw [undeclared, undeclared']
    rcases Shape.rel_cases shapes.index with ⟨unsigned, unsigned'⟩ | ⟨_, _, signed, signed', here⟩
    · rw [unsigned, unsigned']
      exact .fail rfl
    · rw [signed, signed']
      exact .pure here.type
  · simp only [declared, declared', here.optional]
    split
    · refine twinning.bind (includesUndefined_paired twinning here.type) ?_
      rintro included _ middle grown rfl
      split
      · exact .pure (grown.ids _ _ here.type)
      · exact .alloc (.union (.cons (grown.ids _ _ here.type) (.cons middle.undefined .nil))) trivial
    · exact .pure here.type

section

variable {resolve resolveOther : SchemaId → Run SchemaId} {flatten flattenOther : SchemaId → Run Shape}
  (resolves : ∀ {twins : Twins} {id other}, twins.ids id other →
    twinning.SameId twins (resolve id) (resolveOther other))
  (flattens : ∀ {twins : Twins} {id other}, twins.ids id other →
    twinning.SameShape twins (flatten id) (flattenOther other))

include resolves flattens

theorem project_twins (pair : twins.ids id other) (objects : twins.ids object otherObject) (index : String) :
    twinning.SameId twins (project resolve flatten id object index)
      (project resolveOther flattenOther other otherObject index) := by
  refine InStep.bind (.read _ _) ?_
  rintro _ _ _ - ⟨rfl, rfl, rfl⟩
  rcases Shape.rel_cases (twins.projections.find pair) with ⟨unknown, unknown'⟩ | ⟨_, _, known, known', pair⟩
  · rw [unknown, unknown']
    refine twinning.bind (resolves objects) fun target otherTarget middle grown targets => ?_
    refine twinning.bind (twinning.node targets) ?_
    rintro node otherNode _ - ⟨rfl, same⟩
    rw [← same.interfaceLike, ← same.kind]
    split
    · refine twinning.bind (flattens targets) fun shape otherShape later grown' shapes => ?_
      refine twinning.bind (projectShape_twins shapes index) fun projected otherProjected last grown'' pair' => ?_
      exact .keepProjection (grown''.ids _ _ (grown'.ids _ _ (grown.ids _ _ pair))) pair'
    · exact .fail rfl
  · rw [known, known']
    exact .pure pair

end

section

variable {project projectOther : SchemaId → SchemaId → String → Run SchemaId}
  (projects : ∀ {twins : Twins} {id other object otherObject}, twins.ids id other →
    twins.ids object otherObject → ∀ index,
      twinning.SameId twins (project id object index) (projectOther other otherObject index))

include projects

theorem hop_twins (pair : twins.ids id other) :
    InStep twins (hop project id) (hop projectOther other) fun next otherNext later =>
      Option.Rel later.ids next otherNext := by
  refine InStep.bind (.node pair) ?_
  rintro node otherNode _ - ⟨found, rfl, same⟩
  cases same with
  | @plain node plain =>
      cases node with
      | reference target =>
          exact InStep.bind (lookupTarget_twins pair found) fun _ _ _ _ pair => .pure (.some pair)
      | _ => first | exact plain.elim | exact .pure .none
  | indexedAccess objects index =>
      exact InStep.bind (projects pair objects index) fun _ _ _ _ pair => .pure (.some pair)
  | _ => exact .pure .none

omit projects in
/-- Where a chain ends on the left, it ends on the right. -/
theorem follow_ends_twins (hops otherHops : Nat) (listed : List.Forall₂ twins.ids visited otherVisited)
    (pair : twins.ids id other)
    (ends : visited.contains id = true ∨ ∀ node, twins.left.arena.get? id = some node → node.IsConcrete) :
    twinning.SameId twins (follow project hops visited id) (follow projectOther otherHops otherVisited other) := by
  rcases ends with met | concrete
  · rw [follow_met met, follow_met ((twins.contains_eq listed pair).symm.trans met)]
    exact closeChain_paired twinning pair
  · obtain ⟨node, otherNode, found, found', same⟩ := twins.unfolds _ _ pair
    have concrete := concrete node found
    exact .done (follow_concrete found concrete _ _).now (follow_concrete found' (same.concrete.mp concrete) _ _).now
      (.refl twins) pair

/-- With hops enough on both sides. -/
theorem follow_twins {size otherSize hops otherHops : Nat}
    (listed : List.Forall₂ twins.ids visited otherVisited) (pair : twins.ids id other)
    (enough : Enough size hops visited twins.left) (enough' : Enough otherSize otherHops otherVisited twins.right) :
    twinning.SameId twins (follow project hops visited id) (follow projectOther otherHops otherVisited other) := by
  induction hops generalizing twins otherHops visited otherVisited id other with
  | zero =>
      refine follow_ends_twins 0 otherHops listed pair (Classical.or_iff_not_imp_left.mpr fun unmet node found => ?_)
      exact Classical.byContradiction fun link => unmet (List.elem_iff.mpr (enough.met found link))
  | succ hops ih =>
      by_cases ends : visited.contains id = true ∨
          ∀ node, twins.left.arena.get? id = some node → node.IsConcrete
      · exact follow_ends_twins (hops + 1) otherHops listed pair ends
      · obtain ⟨unmet, link⟩ := not_or.mp ends
        obtain ⟨node, found, link⟩ := by simpa only [not_forall, exists_prop] using link
        obtain ⟨_, otherNode, again, found', same⟩ := twins.unfolds _ _ pair
        cases found.symm.trans again
        have link' : ¬ otherNode.IsConcrete := fun concrete => link (same.concrete.mpr concrete)
        have unmet' : ¬ otherVisited.contains other = true := twins.contains_eq listed pair ▸ unmet
        have fresh : id ∉ visited := fun met => unmet (List.elem_iff.mpr met)
        have fresh' : other ∉ otherVisited := fun met => unmet' (List.elem_iff.mpr met)
        cases otherHops with
        | zero => exact (fresh' (enough'.met found' link')).elim
        | succ otherHops =>
            rw [follow_unmet unmet, follow_unmet unmet']
            refine InStep.bind (hop_twins projects pair) fun next otherNext middle grown nexts => ?_
            cases nexts with
            | none => exact .pure (grown.ids _ _ pair)
            | some nexts =>
                exact ih (.cons (grown.ids _ _ pair) (listed.imp grown.ids)) nexts
                  ((enough.cons found link fresh).later grown.left)
                  ((enough'.cons found' link' fresh').later grown.right)

end

theorem unlessKnown_twins {compute computeOther : Run Shape}
    (listed : List.Forall₂ twins.ids visited otherVisited) (pair : twins.ids id other)
    (computes : twinning.SameShape twins compute computeOther) :
    twinning.SameShape twins (unlessKnown visited id compute) (unlessKnown otherVisited other computeOther) := by
  refine InStep.bind (.read _ _) ?_
  rintro _ _ _ - ⟨rfl, rfl, rfl⟩
  rcases Shape.rel_cases (twins.shapes.find pair) with ⟨unknown, unknown'⟩ | ⟨_, _, known, known', shapes⟩
  · simp only [unknown, unknown', twins.contains_eq listed pair]
    split
    · exact .fail rfl
    · exact computes
  · rw [known, known']
    exact .pure shapes

/-- What each number of steps gives. -/
theorem within_twins (limit steps : Nat) :
    (∀ {twins : Twins} {id other}, twins.ids id other →
        twinning.SameId twins (resolveWithin limit steps id) (resolveWithin limit steps other)) ∧
      ∀ {twins : Twins} {chain otherChain id other}, List.Forall₂ twins.ids chain otherChain →
        twins.ids id other →
        twinning.SameShape twins (flattenWithin limit steps chain id) (flattenWithin limit steps otherChain other) := by
  induction steps with
  | zero => exact ⟨fun _ => .fail rfl, fun listed pair => unlessKnown_twins listed pair (.fail rfl)⟩
  | succ steps ih =>
      obtain ⟨resolves, flattens⟩ := ih
      refine ⟨fun {twins id other} pair => ?_, fun {twins chain otherChain id other} listed pair => ?_⟩
      · refine InStep.bind (.read _ _) ?_
        rintro _ _ _ - ⟨rfl, rfl, rfl⟩
        exact follow_twins (project_twins resolves (flattens .nil)) .nil pair (.start _) (.start _)
      · refine unlessKnown_twins listed pair ?_
        refine twinning.bind (flattenNode_paired twinning (fun _ => resolves) (fun since => flattens ?_)
          (twinning.refl twins) pair) fun shape otherShape later grown shapes => ?_
        · exact .cons (since.ids _ _ pair) (listed.imp since.ids)
        · exact .keepShape (grown.ids _ _ pair) shapes

end Conform.Resolver
