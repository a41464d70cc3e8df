import Conform.Proofs.Alias.Flattening

/-! The shapes of nodes whose parts resolve alike.  They come from the same other shapes, or wait for the
same one. -/

namespace Conform.Alias

open Relation Run Resolver Agreement Distributed

variable {core limit steps : Nat} {before last : ResolverState} {id other target otherTarget : SchemaId}
  {error : SchemaError} {shape otherShape : Shape} {answer again : Except SchemaError Shape}
  {ids : SchemaId → SchemaId → Prop}

/-- Both nodes resolve to one. -/
def Joins (last : ResolverState) (id other : SchemaId) : Prop :=
  ∃ target, Resolves last id target ∧ Resolves last other target

/-- Nodes that resolve to one, or are one. -/
def Alike (last : ResolverState) (id other : SchemaId) : Prop :=
  id = other ∨ Joins last id other

theorem resolves_node (sound : last.Sound core) (resolves : Resolves last id target) :
    ∃ node, last.arena.get? target = some node ∧ node.IsConcrete := by
  obtain ⟨node, found, concrete, -⟩ :=
    ((resolveWithin_meets 0 1 id last sound).answers _ _ resolves.now).2.1
  exact ⟨node, found, concrete⟩

theorem pick_error_eq (pair : Shape.PickRelated ids (.error error) again) :
    again = .error error := by
  cases pair
  rfl

/-- The two shapes come from the same other ones. -/
def SameStep (last : ResolverState) (ids : SchemaId → SchemaId → Prop) (id other : SchemaId) : Prop :=
  ∀ fuel missing, Shape.PickRelated ids (flattenAt last id (fuel + 1) missing)
    (flattenAt last other (fuel + 1) missing)

namespace SameStep

theorem fails (same : SameStep last ids id other) {stopped : (SchemaId → SchemaError) → SchemaError}
    (stops : Converges (flattenAt last id) fun missing => .error (stopped missing)) :
    Converges (flattenAt last other) fun missing => .error (stopped missing) := by
  obtain ⟨enough, ends⟩ := stops
  refine .of_succ ⟨enough, fun fuel above => funext fun missing => ?_⟩
  have pair := same fuel missing
  rw [congrFun (ends (fuel + 1) (Nat.le_succ_of_le above)) missing] at pair
  exact pick_error_eq pair

theorem gives (same : SameStep last ids id other)
    (stops : Converges (flattenAt last id) fun _ => .ok shape)
    (stops' : Converges (flattenAt last other) fun _ => .ok otherShape) :
    Shape.Related ids shape otherShape := by
  obtain ⟨enough, ends⟩ := stops
  obtain ⟨enough', ends'⟩ := stops'
  have pair := same (max enough enough') .cyclicInheritance
  rw [congrFun (ends _ (by omega)) _, congrFun (ends' _ (by omega)) _] at pair
  cases pair with
  | ok related => exact related

theorem gives_some (same : SameStep last ids id other)
    (stops : Converges (flattenAt last id) fun _ => .ok shape) :
    ¬ (inheritance last).Comes TellsOfInheritance other error := by
  intro comes
  obtain ⟨enough, ends⟩ := stops
  have unlike {stopped : (SchemaId → SchemaError) → SchemaError}
      (fails : Converges (flattenAt last other) fun missing => .error (stopped missing)) : False := by
    obtain ⟨enough', ends'⟩ := fails
    have pair := same (max enough enough') .cyclicInheritance
    rw [congrFun (ends _ (by omega)) _, congrFun (ends' _ (by omega)) _] at pair
    cases pair
  rcases comes.starts with stops' | ⟨_, stops', -⟩
  · exact unlike stops'
  · exact unlike stops'

end SameStep

/-- Shapes that come from the same ones are related, or there is neither. -/
theorem SameStep.sameFate (same : SameStep last ids id other) (sound : last.Sound core)
    (flattens : FlattensTo last id answer) (flattens' : FlattensTo last other again) :
    SameFate (Shape.Related ids) answer again := by
  cases flattens with
  | known known =>
      have computed := flattenAt_known sound known
      cases flattens' with
      | known known' => exact .found (same.gives computed (flattenAt_known sound known'))
      | fails _ comes => exact (same.gives_some computed comes).elim
  | fails _ comes =>
      cases flattens' with
      | known known' =>
          have computed := flattenAt_known sound known'
          rcases comes.starts with stops | ⟨_, stops, -⟩ <;>
            cases congrFun ((same.fails stops).unique computed) .cyclicInheritance
      | fails _ comes' =>
          rcases comes.starts with stops | ⟨next, stops, onward⟩
          · cases comes'.of_ends (same.fails stops)
            exact .failed rfl
          · exact .failed (onward.uncircled ((Course.Comes.onward_iff (same.fails stops)).mp comes'))

/-- The shape of the node is made from that of another one. -/
def Takes (last : ResolverState) (id other : SchemaId) (makes : Shape → Shape) : Prop :=
  ∀ fuel missing, flattenAt last id (fuel + 1) missing =
    (recallOr last missing other last).1.map makes

theorem Takes.known {makes : Shape → Shape} (takes : Takes last id other makes)
    (known : last.shapes.find? other = some shape) :
    Converges (flattenAt last id) fun _ => .ok (makes shape) := by
  refine .of_succ ⟨0, fun fuel _ => funext fun missing => (takes fuel missing).trans ?_⟩
  rw [recallOr_known known missing last]
  rfl

theorem Takes.unknown {makes : Shape → Shape} (takes : Takes last id other makes)
    (unknown : last.shapes.find? other = none) : WaitsFor last id other := by
  refine .of_succ ⟨0, fun fuel _ => funext fun missing => (takes fuel missing).trans ?_⟩
  rw [recallOr_unknown unknown missing last]
  rfl

/-- What the shape of such a node comes to is made from what that of the other one comes to. -/
theorem Takes.flattens {makes : Shape → Shape} (takes : Takes last id other makes) (sound : last.Sound core)
    (flattens : FlattensTo last id answer) :
    ∃ found, FlattensTo last other found ∧ answer = found.map makes := by
  cases known : last.shapes.find? other with
  | some shape =>
      refine ⟨.ok shape, .known known, ?_⟩
      cases flattens with
      | known known' =>
          exact congrFun ((flattenAt_known sound known').unique (takes.known known)) .cyclicInheritance
      | fails _ comes => exact (comes.not_computed (takes.known known)).elim
  | none =>
      have waits := takes.unknown known
      cases flattens with
      | known known' => cases congrFun ((flattenAt_known sound known').unique waits) .cyclicInheritance
      | fails _ comes => exact ⟨_, .fails known ((Course.Comes.onward_iff waits).mp comes), rfl⟩

theorem flattensTo_fate (flattens : FlattensTo last id answer) (flattens' : FlattensTo last id again) :
    SameFate Eq answer again := by
  cases flattens with
  | known known =>
      cases flattens' with
      | known known' =>
          cases known.symm.trans known'
          exact .found rfl
      | fails unknown => cases unknown.symm.trans known
  | fails unknown comes =>
      cases flattens' with
      | known known => cases unknown.symm.trans known
      | fails _ comes' => exact .failed (comes.uncircled comes')

theorem map_same {found : Except SchemaError Shape} : found.map (fun shape => shape) = found := by
  cases found <;> rfl

/-- A link has the shape of what it resolves to. -/
theorem FlattensTo.behind (sound : last.Sound core) (resolves : Resolves last id target)
    (flattens : FlattensTo last id answer) : FlattensTo last target answer := by
  obtain ⟨node, found⟩ := last.arena.exists_get? id (resolve_present resolves.now)
  by_cases concrete : node.IsConcrete
  · cases resolves.concrete found concrete
    exact flattens
  obtain ⟨there, found', ends⟩ := resolves_node sound resolves
  have steps (fuel : Nat) (missing : SchemaId → SchemaError) : flattenAt last id (fuel + 1) missing =
      ((if there.isInterfaceLike then recallOr last missing target
        else Run.fail (.notInterfaceLike there.kind) : Run Shape) last).1 := by
    have onward : flattenNode (resolveWithin 0 (fuel + 1)) (recallOr last missing) id last =
        shapeBehind (resolveWithin 0 (fuel + 1)) (recallOr last missing) .notInterfaceLike id last := by
      refine (bind_ok (node_apply found)).trans ?_
      cases node <;> first | rfl | exact (concrete trivial).elim
    exact congrArg Prod.fst
      (onward.trans ((bind_ok (resolves.lasts 0 fuel).now).trans (bind_ok (node_apply found'))))
  cases like : there.isInterfaceLike with
  | true =>
      have takes : Takes last id target fun shape => shape := fun fuel missing => by
        rw [steps, like, map_same]
        rfl
      obtain ⟨found, flattens', rfl⟩ := takes.flattens sound flattens
      rwa [map_same]
  | false =>
      -- Both come to the kind of the node, each in a computation of its own.
      have fails : Shapeless last id (.notInterfaceLike there.kind) :=
        .of_succ ⟨0, fun fuel _ => funext fun missing => (steps fuel missing).trans (by rw [like]; rfl)⟩
      have stops (fuel : Nat) (missing : SchemaId → SchemaError) :
          flattenNode (resolveWithin 0 fuel) (recallOr last missing) target last =
            (.error (.notInterfaceLike there.kind), last) := by
        refine (bind_ok (node_apply found')).trans ?_
        cases there <;> first | rfl | exact ends.elim | cases like
      have fails' : Shapeless last target (.notInterfaceLike there.kind) :=
        ⟨0, fun fuel _ => funext fun missing => congrArg Prod.fst (stops fuel missing)⟩
      cases flattens with
      | known known => cases congrFun ((flattenAt_known sound known).unique fails) .cyclicInheritance
      | fails _ comes =>
          cases comes.of_ends fails
          refine .fails ?_ (.inl (.here fails'))
          cases known : last.shapes.find? target with
          | none => rfl
          | some shape => cases congrFun ((flattenAt_known sound known).unique fails') .cyclicInheritance

/-- Nodes that resolve to one have one shape. -/
theorem Joins.sameFate (joins : Joins last id other) (sound : last.Sound core)
    (flattens : FlattensTo last id answer) (flattens' : FlattensTo last other again) :
    SameFate Eq answer again := by
  obtain ⟨target, resolves, resolves'⟩ := joins
  exact flattensTo_fate (flattens.behind sound resolves) (flattens'.behind sound resolves')

theorem inheritParents_same (sound : last.Sound core) {parents others : List SchemaId}
    (joined : List.Forall₂ (Joins last) parents others) (related : Shape.Related (Alike last) shape otherShape)
    (fuel : Nat) (missing : SchemaId → SchemaError) : Shape.PickRelated (Alike last)
      (inheritParents (resolveWithin 0 (fuel + 1)) (recallOr last missing) shape parents last).1
      (inheritParents (resolveWithin 0 (fuel + 1)) (recallOr last missing) otherShape others last).1 := by
  induction joined generalizing shape otherShape with
  | nil => exact .ok related
  | @cons parent other rest more here _ ih =>
      obtain ⟨target, resolves, resolves'⟩ := here
      obtain ⟨node, found, -⟩ := resolves_node sound resolves
      rw [inheritParents, inheritParents, bind_ok (resolves.lasts 0 fuel).now,
        bind_ok (resolves'.lasts 0 fuel).now, bind_ok (node_apply found), bind_ok (node_apply found)]
      cases node with
      | interface _ _ _ =>
          cases known : last.shapes.find? target with
          | some inherited =>
              have recalls := recallOr_known known missing last
              dsimp only
              rw [bind_ok recalls, bind_ok recalls]
              exact ih (related.inherit (.refl fun _ _ => .inl rfl))
          | none =>
              have recalls := recallOr_unknown known missing last
              dsimp only
              rw [bind_error recalls, bind_error recalls]
              exact .error _
      | _ => exact .error _

theorem interfaces_same (sound : last.Sound core) {properties others : List Property}
    {index otherIndex : Option IndexSignature} {parents otherParents : List SchemaId}
    (found : last.arena.get? id = some (.interface properties index parents))
    (found' : last.arena.get? other = some (.interface others otherIndex otherParents))
    (declared : List.Forall₂ (Property.Related (Alike last)) properties others)
    (signed : Option.Rel (IndexSignature.Related (Alike last)) index otherIndex)
    (joined : List.Forall₂ (Joins last) parents otherParents) : SameStep last (Alike last) id other := by
  intro fuel missing
  rw [flattenAt, flattenAt, flattenNode, flattenNode, bind_ok (node_apply found), bind_ok (node_apply found')]
  exact inheritParents_same sound joined (Shape.own_related declared signed) fuel missing

/-- The shape of a resolved node, if it has one. -/
def baseAt (last : ResolverState) (target : SchemaId) (node : Node) (reject : Kind → SchemaError)
    (missing : SchemaId → SchemaError) : Run Shape :=
  if node.isInterfaceLike then recallOr last missing target else Run.fail (reject node.kind)

theorem baseAt_cases (last : ResolverState) (target : SchemaId) (node : Node) (reject : Kind → SchemaError) :
    (∃ base, ∀ missing, baseAt last target node reject missing last = (.ok base, last)) ∨
      ∃ stopped : (SchemaId → SchemaError) → SchemaError, ∀ missing,
        baseAt last target node reject missing last = (.error (stopped missing), last) := by
  unfold baseAt
  cases node.isInterfaceLike with
  | false => exact .inr ⟨fun _ => reject node.kind, fun _ => rfl⟩
  | true =>
      cases known : last.shapes.find? target with
      | some base => exact .inl ⟨base, fun missing => recallOr_known known missing last⟩
      | none => exact .inr ⟨fun missing => missing target, fun missing => recallOr_unknown known missing last⟩

/-- The shape behind a target, and what a combinator makes of it. -/
theorem mapped_step {combinator : Combinator} {node : Node}
    (found : last.arena.get? id = some (.mapped combinator other)) (resolves : Resolves last other target)
    (there : last.arena.get? target = some node) (fuel : Nat) (missing : SchemaId → SchemaError) :
    flattenAt last id (fuel + 1) missing =
      ((baseAt last target node (.invalidCombinatorTarget combinator.kind) missing >>= fun base =>
        combine (recallOr last missing) base combinator) last).1 := by
  have onward : flattenNode (resolveWithin 0 (fuel + 1)) (recallOr last missing) id last =
      (flattenTarget (resolveWithin 0 (fuel + 1)) (recallOr last missing) combinator other >>= fun base =>
        combine (recallOr last missing) base combinator) last := bind_ok (node_apply found)
  have behind : flattenTarget (resolveWithin 0 (fuel + 1)) (recallOr last missing) combinator other last =
      baseAt last target node (.invalidCombinatorTarget combinator.kind) missing last :=
    (bind_ok (resolves.lasts 0 fuel).now).trans (bind_ok (node_apply there))
  exact congrArg Prod.fst (onward.trans (bind_congr_first behind))

/-- With a known base the shape is made from that of the patch. -/
theorem overwrite_takes {base : Shape} {patch : SchemaId} {node : Node}
    (found : last.arena.get? id = some (.mapped (.overwrite patch) other)) (resolves : Resolves last other target)
    (there : last.arena.get? target = some node)
    (based : ∀ missing, baseAt last target node (.invalidCombinatorTarget .overwrite) missing last =
      (.ok base, last)) : Takes last id patch base.overwrite := by
  intro fuel missing
  refine (mapped_step found resolves there fuel missing).trans ?_
  rw [Combinator.kind, bind_ok (based missing), combine]
  cases known : last.shapes.find? patch with
  | some top =>
      have recalls := recallOr_known known missing last
      rw [bind_ok recalls, recalls]
      rfl
  | none =>
      have recalls := recallOr_unknown known missing last
      rw [bind_error recalls, recalls]
      rfl

theorem SameStep.of_eq (same : ∀ fuel missing, flattenAt last id (fuel + 1) missing =
    flattenAt last other (fuel + 1) missing) : SameStep last Eq id other := by
  intro fuel missing
  rw [same]
  cases flattenAt last other (fuel + 1) missing with
  | ok shape => exact .ok (.refl fun _ _ => rfl)
  | error error => exact .error error

/-- One combinator on targets that resolve to one, with a patch that may be resolved on the way. -/
theorem mapped_sameFate (sound : last.Sound core) {combinator otherCombinator : Combinator}
    (found : last.arena.get? id = some (.mapped combinator target))
    (found' : last.arena.get? other = some (.mapped otherCombinator otherTarget))
    (combinators : Combinator.Related (Joins last) combinator otherCombinator)
    (joined : Joins last target otherTarget) (flattens : FlattensTo last id answer)
    (flattens' : FlattensTo last other again) : SameFate Eq answer again := by
  obtain ⟨resolved, resolves, resolves'⟩ := joined
  obtain ⟨node, there, -⟩ := resolves_node sound resolves
  have steps := mapped_step found resolves there
  have steps' := mapped_step found' resolves' there
  have of_same (same : ∀ fuel missing, flattenAt last id (fuel + 1) missing =
      flattenAt last other (fuel + 1) missing) : SameFate Eq answer again :=
    ((SameStep.of_eq same).sameFate sound flattens flattens').imp fun _ _ related =>
      (related.eq_of fun _ _ _ same => same.symm).symm
  cases combinators with
  | pick keys | optional | without keys =>
      exact of_same fun fuel missing => (steps fuel missing).trans (steps' fuel missing).symm
  | @overwrite patch otherPatch patches =>
      rcases baseAt_cases last resolved node (.invalidCombinatorTarget .overwrite) with
        ⟨base, based⟩ | ⟨stopped, stops⟩
      · obtain ⟨top, tops, rfl⟩ := (overwrite_takes found resolves there based).flattens sound flattens
        obtain ⟨top', tops', rfl⟩ := (overwrite_takes found' resolves' there based).flattens sound flattens'
        exact (patches.sameFate sound tops tops').map_eq base.overwrite
      · refine of_same fun fuel missing => ?_
        rw [steps, steps', Combinator.kind, Combinator.kind, bind_error (stops missing),
          bind_error (stops missing)]

end Conform.Alias
