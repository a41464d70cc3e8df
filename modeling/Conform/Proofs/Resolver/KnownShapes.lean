import Conform.Proofs.Resolver.Stable

/-! Known shapes.  A shape that is remembered comes from shapes that were remembered
before it, down to an interface; so no union stands for its node. -/

namespace Conform.Resolver

open Run

variable {core limit steps budget : Nat} {state : ResolverState} {id target : SchemaId}
  {shape : Shape} {entries older : List (SchemaId × Shape)} {chain : CombinatorChain}

theorem recallShape_stable (entries : List (SchemaId × Shape)) (id : SchemaId) :
    Stable core (recallShape entries id) := by
  simp only [recallShape]
  split
  · exact .pure _
  · exact .fail _

theorem recallShape_yields (yields : Yields (recallShape entries id) state shape) :
    entries.lookup id = some shape := by
  cases found : entries.lookup id with
  | some known =>
      rw [Yields, recallShape, found] at yields
      cases yields
      rfl
  | none =>
      rw [Yields, recallShape, found] at yields
      cases yields

/-- What the shape of a node comes from. -/
inductive Source (state : ResolverState) (older : List (SchemaId × Shape)) (id : SchemaId)
    (shape : Shape) : Prop
  | interface {properties : List Property} {index : Option IndexSignature} {parents : List SchemaId}
      (node : state.arena.get? id = some (.interface properties index parents))
  | mapped {combinator : Combinator} {object resolved : SchemaId} {node : Node} {base : Shape}
      (found : state.arena.get? id = some (.mapped combinator object))
      (resolves : Resolves state object resolved) (there : state.arena.get? resolved = some node)
      (like : node.isInterfaceLike = true) (known : older.lookup resolved = some base)
  | follows {node targetNode : Node} {target : SchemaId} (found : state.arena.get? id = some node)
      (onward : ¬ node.IsConcrete) (resolves : Resolves state id target)
      (there : state.arena.get? target = some targetNode) (like : targetNode.isInterfaceLike = true)
      (known : older.lookup target = some shape)

theorem combine_stable {flatten : SchemaId → Run Shape} (flattens : ∀ id, Stable core (flatten id))
    (base : Shape) (combinator : Combinator) : Stable core (combine flatten base combinator) := by
  cases combinator with
  | pick keys =>
      simp only [combine]
      cases base.pick keys with
      | ok picked => exact .pure picked
      | error error => exact .fail error
  | optional => exact .pure _
  | without keys => exact .pure _
  | overwrite patch => exact .bind (flattens patch) fun _ => .pure _

/-- The shape of a patch was known before. -/
theorem combine_overwrite_yields (sound : state.Sound core) {base : Shape} {patch : SchemaId}
    (yields : Yields (combine (recallShape older) base (.overwrite patch)) state shape) :
    ∃ top, older.lookup patch = some top ∧ base.overwrite top = shape := by
  obtain ⟨top, recalls, rest⟩ :=
    Yields.split (recallShape_stable older patch) (fun _ => .pure _) sound yields
  cases rest
  exact ⟨top, recallShape_yields recalls, rfl⟩

theorem shapeBehind_stable {resolve : SchemaId → Run SchemaId} {flatten : SchemaId → Run Shape}
    (resolves : ∀ id, Stable core (resolve id)) (flattens : ∀ id, Stable core (flatten id))
    (reject : Kind → SchemaError) (target : SchemaId) :
    Stable core (shapeBehind resolve flatten reject target) := by
  refine .bind (resolves target) fun resolved => .bind (.node resolved) fun node => ?_
  split
  · exact flattens resolved
  · exact .fail _

theorem flattenTarget_stable {resolve : SchemaId → Run SchemaId} {flatten : SchemaId → Run Shape}
    (resolves : ∀ id, Stable core (resolve id)) (flattens : ∀ id, Stable core (flatten id))
    (combinator : Combinator) (target : SchemaId) :
    Stable core (flattenTarget resolve flatten combinator target) :=
  shapeBehind_stable resolves flattens (.invalidCombinatorTarget combinator.kind) target

/-- A target whose shape is recalled. -/
theorem shapeBehind_yields (sound : state.Sound core) {reject : Kind → SchemaError}
    (yields : Yields (shapeBehind (resolveWithin 0 1) (recallShape older) reject target) state
      shape) : ∃ resolved node, Resolves state target resolved ∧
      state.arena.get? resolved = some node ∧ node.isInterfaceLike = true ∧
        older.lookup resolved = some shape := by
  obtain ⟨resolved, resolves, rest⟩ := Yields.split (resolveWithin_stable 0 1 target)
    (fun resolved => .bind (.node resolved) fun node => by
      split
      · exact recallShape_stable older resolved
      · exact .fail _) sound yields
  obtain ⟨node, _, reads, rest⟩ := of_bind_ok rest
  obtain ⟨there, rfl⟩ := of_node_ok reads
  cases like : node.isInterfaceLike with
  | true =>
      simp only [like, if_true] at rest
      exact ⟨resolved, node, Yields.resolves sound resolves, there, like, recallShape_yields rest⟩
  | false =>
      simp only [like] at rest
      cases rest

/-- The shape of a combinator comes from the shape of its target. -/
theorem ShapeSound.mapped (sound : state.Sound core)
    (accounted : ShapeSound core state older id shape) {combinator : Combinator}
    (found : state.arena.get? id = some (.mapped combinator target)) :
    ∃ resolved node base, Resolves state target resolved ∧ state.arena.get? resolved = some node ∧
      node.isInterfaceLike = true ∧ older.lookup resolved = some base ∧
        Yields (combine (recallShape older) base combinator) state shape := by
  obtain ⟨_, _, reads, rest⟩ := of_bind_ok accounted.computed.now
  cases (node_apply found).symm.trans reads
  obtain ⟨base, flattens, combines⟩ := Yields.split
    (flattenTarget_stable (resolveWithin_stable 0 1) (recallShape_stable older) combinator target)
    (fun base => combine_stable (recallShape_stable older) base combinator) sound rest
  obtain ⟨resolved, node, resolves, there, like, known⟩ := shapeBehind_yields sound flattens
  exact ⟨resolved, node, base, resolves, there, like, known, combines⟩

theorem ShapeSound.source (sound : state.Sound core)
    (accounted : ShapeSound core state older id shape) : Source state older id shape := by
  obtain ⟨node, _, reads, rest⟩ := of_bind_ok accounted.computed.now
  obtain ⟨found, rfl⟩ := of_node_ok reads
  cases node with
  | reference _ | indexedAccess _ _ =>
      obtain ⟨target, targetNode, resolves, there, like, known⟩ := shapeBehind_yields sound rest
      exact .follows found nofun resolves there like known
  | interface properties index parents => exact .interface found
  | mapped combinator object =>
      obtain ⟨resolved, node, base, resolves, there, like, known, -⟩ := accounted.mapped sound found
      exact .mapped found resolves there like known
  | _ => cases rest

/-- Whether a chain ends in an interface does not depend on what has been met. -/
theorem walkChain_none {resolve : SchemaId → Run SchemaId} {before after : ResolverState}
    (ran : walkChain limit resolve budget chain target before = (.ok none, after))
    (other : CombinatorChain) :
    walkChain limit resolve budget other target before = (.ok none, after) := by
  induction budget generalizing chain other target before with
  | zero => cases ran
  | succ budget ih =>
      obtain ⟨resolved, middle, resolves, rest⟩ := of_bind_ok ran
      obtain ⟨node, later, reads, rest⟩ := of_bind_ok rest
      refine (bind_ok resolves).trans ((bind_ok reads).trans ?_)
      cases node with
      | mapped combinator inner => exact ih rest _
      | interface _ _ _ => exact rest
      | _ => cases rest

/-- A combinator stands for no union if its target stands for none. -/
theorem Undistributed.behind {combinator : Combinator} {object resolved : SchemaId}
    (undistributed : Undistributed state resolved)
    (found : state.arena.get? id = some (.mapped combinator object))
    (resolves : Resolves state object resolved) : Undistributed state id := by
  cases undistributed with
  | interface node =>
      have walks : Walks state 1 ⟨combinator, []⟩ object none := fun later grown =>
        (bind_ok (resolves later grown)).trans
          (bind_ok (node_apply (ResolverState.get?_later node grown)))
      exact .mapped found walks
  | @mapped inner target budget node walks =>
      have longer : Walks state (budget + 1) ⟨combinator, []⟩ object none := fun later grown =>
        (bind_ok (resolves later grown)).trans
          ((bind_ok (node_apply (ResolverState.get?_later node grown))).trans
            (walkChain_none (walks later grown) _))
      exact .mapped found longer

/-- No union stands for an interface or a combinator whose shape is known. -/
theorem undistributed_of_known (sound : state.Sound core) (known : state.shapes.find? id = some shape) :
    ∀ node, state.arena.get? id = some node → node.isInterfaceLike = true → Undistributed state id := by
  apply Memo.find?_induction (motive := fun id _ => ∀ node, state.arena.get? id = some node →
    node.isInterfaceLike = true → Undistributed state id) _ known
  intro older id shape suffix earlier node found like
  cases (sound.shapes older id shape suffix).source sound with
  | interface node => exact .interface node
  | mapped found resolves there like known => exact (earlier _ _ known _ there like).behind found resolves
  | follows found' onward =>
      cases found.symm.trans found'
      have concrete : node.IsConcrete := by cases node <;> trivial
      exact (onward concrete).elim

/-- Within a limit the way down is the same, as far as it gets. -/
theorem walkChain_within {before after : ResolverState} {found : Option (CombinatorChain × List SchemaId)}
    (ran : walkChain 0 (resolveWithin 0 1) budget chain target before = (.ok found, after))
    (limit steps wide : Nat) :
    walkChain limit (resolveWithin limit steps) wide chain target before = (.ok found, after) ∨
      ∃ last, walkChain limit (resolveWithin limit steps) wide chain target before =
        (.error (.depthLimitExceeded limit), last) := by
  induction budget generalizing chain target before wide with
  | zero => cases ran
  | succ budget ih =>
      obtain ⟨resolved, middle, resolves, rest⟩ := of_bind_ok ran
      obtain ⟨node, later, reads, rest⟩ := of_bind_ok rest
      cases wide with
      | zero => exact .inr ⟨before, rfl⟩
      | succ wide =>
          cases steps with
          | zero => exact .inr ⟨before, rfl⟩
          | succ steps =>
              have onward : walkChain limit (resolveWithin limit (steps + 1)) (wide + 1) chain target
                  before = _ := (bind_ok (follow_recalled resolves)).trans (bind_ok reads)
              rw [onward]
              cases node with
              | mapped combinator inner => exact ih rest wide
              | _ => exact .inl rest

/-- That no union stands for a node is found again, or the limit is reached. -/
theorem Undistributed.again (undistributed : Undistributed state id) (sound : state.Sound core)
    (limit steps : Nat) : distributeWithin limit steps id state = (.ok none, state) ∨
      ∃ last, distributeWithin limit steps id state = (.error (.depthLimitExceeded limit), last) := by
  have unknown := sound.undistributed_unknown undistributed
  simp only [distributeWithin, bind_ok (read_apply _), unknown]
  cases steps with
  | zero => exact .inr ⟨state, rfl⟩
  | succ steps =>
      cases undistributed with
      | interface node => exact .inl (bind_ok (node_apply node))
      | @mapped combinator target budget node walks =>
          have onward : distributeNode limit steps id state = _ := bind_ok (node_apply node)
          dsimp only
          rw [onward]
          rcases walkChain_within (Lasts.now walks) limit steps limit with walked | ⟨last, walked⟩
          · exact .inl (bind_ok walked)
          · exact .inr ⟨last, bind_error walked⟩

theorem flattenNode_plain {resolve : SchemaId → Run SchemaId} {flatten : SchemaId → Run Shape}
    (node : state.arena.get? id = some (.interface shape.properties shape.index []))
    (distinct : shape.names.Nodup) : flattenNode resolve flatten id state = (.ok shape, state) := by
  refine (bind_ok (node_apply node)).trans ?_
  change inheritParents resolve flatten (Shape.own shape.properties shape.index) [] state = _
  rw [Shape.own_eq distinct]
  rfl

/-- An interface without parents, whose names are distinct, has its own shape. -/
theorem flattenWithin_plain (sound : state.Sound core)
    (node : state.arena.get? id = some (.interface shape.properties shape.index []))
    (distinct : shape.names.Nodup) (limit steps : Nat) :
    flattenWithin limit (steps + 1) [] id state =
      (.ok shape, { state with shapes := (state.shapes.settle id shape).2 }) := by
  simp only [flattenWithin, unlessKnown, bind_ok (read_apply _)]
  cases known : state.shapes.find? id with
  | some earlier =>
      obtain ⟨older, -, accounted⟩ := shape_sound sound known
      cases (flattenNode_plain node distinct).symm.trans accounted.computed.now
      rw [Memo.settle_known known]
      rfl
  | none =>
      refine (bind_ok (flattenNode_plain node distinct)).trans ?_
      rw [keepShape_apply, Memo.settle_unknown known]

end Conform.Resolver
