import Conform.Proofs.Resolver.Stable

/-! Identities that stand for a node lead to such identities only: through the nodes, the
symbols and the memos.  So an operation that is given issued identities never stops at an
unknown one, and what it answers is issued again. -/

namespace Conform.Resolver

open Run

variable {core : Nat} {α β : Type} {given wider : List SchemaId} {first : Run α} {next : α → Run β}
  {run : Run α} {mentions : α → List SchemaId} {others : β → List SchemaId} {id target : SchemaId}
  {shape : Shape}

/-- Every one of the identities stands for a node. -/
def Present (state : ResolverState) (given : List SchemaId) : Prop :=
  ∀ id ∈ given, id.index < state.arena.size

theorem Present.later {before after : ResolverState} (present : Present before given)
    (grown : before ≤ after) : Present after given :=
  fun id listed => Nat.lt_of_lt_of_le (present id listed) (ResolverState.size_mono grown)

theorem Present.subset {state : ResolverState} (present : Present state wider)
    (subset : given ⊆ wider) : Present state given :=
  fun id listed => present id (subset listed)

/-- With the given identities present the run does not stop at an unknown one. -/
def Finds (core : Nat) (given : List SchemaId) (run : Run α) : Prop :=
  ∀ state, state.Sound core → Present state given → ∀ id, (run state).1 ≠ .error (.unknownId id)

/-- Besides, what the answer mentions is present from then on. -/
structure Locates (core : Nat) (given : List SchemaId) (run : Run α) (mentions : α → List SchemaId) :
    Prop where
  finds : Finds core given run
  meets : ∀ state, state.Sound core → Present state given →
    Meets run state (Grows core state) fun answer after => Present after (mentions answer)

namespace Finds

theorem pure {answer : α} : Finds core given (pure answer : Run α) :=
  fun _ _ _ _ => nofun

theorem fail {error : SchemaError} (other : ∀ id, error ≠ .unknownId id) :
    Finds core given (Run.fail error : Run α) :=
  fun _ _ _ id same => other id (Except.error.inj same)

theorem subset (finds : Finds core given run) (subset : given ⊆ wider) : Finds core wider run :=
  fun state sound present => finds state sound (present.subset subset)

/-- A run that stops stops for the same reason in front of any other. -/
theorem stopped {state after : ResolverState} {error : SchemaError}
    (ran : first state = (.error error, after))
    (finds : ∀ id, (first state).1 ≠ .error (.unknownId id)) (id : SchemaId) :
    ((first >>= next) state).1 ≠ .error (.unknownId id) := by
  rw [bind_error ran]
  rw [ran] at finds
  exact fun same => finds id (congrArg Except.error (Except.error.inj same))

theorem bind (part : Locates core given first mentions)
    (rest : ∀ answer, Finds core (mentions answer ++ given) (next answer)) :
    Finds core given (first >>= next) := by
  intro state sound present id
  have meets := part.meets state sound present
  cases ran : first state with
  | mk outcome middle =>
      cases outcome with
      | ok answer =>
          rw [bind_ok ran]
          have grows := meets.always_ok ran
          have all := List.forall_mem_append.mpr
            ⟨meets.answers answer middle ran, present.later grows.grown⟩
          exact rest answer middle grows.sound all id
      | error error => exact stopped ran (part.finds state sound present) id

/-- What the rest does is no matter if it cannot stop at an unknown identity at all. -/
theorem bind_any (part : Finds core given first)
    (rest : ∀ answer state id, (next answer state).1 ≠ .error (.unknownId id)) :
    Finds core given (first >>= next) := by
  intro state sound present id
  cases ran : first state with
  | mk outcome middle =>
      cases outcome with
      | ok answer =>
          rw [bind_ok ran]
          exact rest answer middle id
      | error error => exact stopped ran (part state sound present) id

/-- A part of the state is read, and is what it is in a sound state. -/
theorem read {part : ResolverState → α}
    (rest : ∀ state, state.Sound core → Present state given → Finds core given (next (part state))) :
    Finds core given (Run.read part >>= next) :=
  fun state sound present => by
    rw [bind_ok (read_apply part)]
    exact rest state sound present state sound present

end Finds

namespace Locates

theorem subset (locates : Locates core given run mentions) (subset : given ⊆ wider) :
    Locates core wider run mentions :=
  ⟨locates.finds.subset subset, fun state sound present =>
    locates.meets state sound (present.subset subset)⟩

theorem of_mem (locates : Locates core [id] run mentions) (listed : id ∈ given) :
    Locates core given run mentions :=
  locates.subset (List.cons_subset.mpr ⟨listed, List.nil_subset _⟩)

/-- A stable run whose answers mention nothing. -/
theorem of_stable (finds : Finds core given run) (stable : Stable core run) :
    Locates core given run fun _ => [] :=
  ⟨finds, fun state sound _ => (stable state sound).imp (fun _ grows => grows)
    fun _ _ _ _ _ listed => nomatch listed⟩

theorem fail {error : SchemaError} (other : ∀ id, error ≠ .unknownId id) :
    Locates core given (Run.fail error : Run α) mentions :=
  ⟨.fail other, fun _ sound _ => .fail (.refl sound)⟩

theorem bind (part : Locates core given first mentions)
    (rest : ∀ answer, Locates core (mentions answer ++ given) (next answer) others) :
    Locates core given (first >>= next) others := by
  refine ⟨.bind part fun answer => (rest answer).finds, fun state sound present => ?_⟩
  refine .bind (part.meets state sound present) fun answer middle grows new => ?_
  have all := List.forall_mem_append.mpr ⟨new, present.later grows.grown⟩
  exact ((rest answer).meets middle grows.sound all).imp (fun _ => grows.trans) fun _ _ _ post => post

theorem node (listed : id ∈ given) : Locates core given (Run.node id) Node.children := by
  refine ⟨fun state _ present other => ?_, fun state sound _ => ?_⟩
  · obtain ⟨node, found⟩ := state.arena.exists_get? id (present id listed)
    rw [node_apply found]
    exact nofun
  · refine (Meets.node id (.refl sound)).imp (fun _ grows => grows) ?_
    rintro node after grows ⟨found, rfl⟩
    exact children_issued sound found

end Locates

theorem pickFrom_error (shape : Shape) (picked : List Property) (keys : List String) (id : SchemaId) :
    shape.pickFrom picked keys ≠ .error (.unknownId id) := by
  induction keys generalizing picked with
  | nil => simp [Shape.pickFrom]
  | cons key rest ih =>
      simp only [Shape.pickFrom]
      split
      · exact ih _
      · split
        · exact ih _
        · simp

theorem pick_error (shape : Shape) (keys : List String) (id : SchemaId) :
    shape.pick keys ≠ .error (.unknownId id) := by
  unfold Shape.pick
  split
  · exact nofun
  · rename_i error failed
    exact fun same => pickFrom_error shape [] keys id (failed.trans (congrArg _ (Except.error.inj same)))

theorem anyUndefined_finds (members : List SchemaId) : Finds core members (anyUndefined members) := by
  induction members with
  | nil => exact .pure
  | cons member rest ih =>
      refine .bind (.node (List.mem_cons_self ..)) fun node => ?_
      split
      · exact .pure
      · exact ih.subset (fun _ listed => by simp [listed])

theorem includesUndefined_finds (type : SchemaId) : Finds core [type] (includesUndefined type) := by
  refine .bind (.node (List.mem_singleton_self _)) fun node => ?_
  cases node with
  | union members => exact (anyUndefined_finds members).subset (List.subset_append_left ..)
  | _ => exact .pure

theorem projectShape_finds (shape : Shape) (index : String) :
    Finds core shape.types (projectShape shape index) := by
  unfold projectShape
  cases declared : shape.property? index with
  | some property =>
      dsimp only
      split
      · refine .bind_any ((includesUndefined_finds _).subset ?_) fun included state id => ?_
        · exact List.cons_subset.mpr ⟨Shape.type_mem_of_property? declared, List.nil_subset _⟩
        · split <;> exact nofun
      · exact .pure
  | none =>
      cases shape.index with
      | some signature => exact .pure
      | none => exact .fail nofun

theorem projection_present {state : ResolverState} {projected : SchemaId} (sound : state.Sound core)
    (known : state.projections.find? id = some projected) : projected.index < state.arena.size := by
  have accounted := sound.projections id projected known
  obtain ⟨object, index, target, shape, node, -⟩ := accounted.computed
  rcases accounted.within with within | ⟨-, type, added⟩
  · exact Within.index_lt within sound.core_le (Nat.le_of_lt (Arena.index_lt_size node))
  · exact Arena.index_lt_size added

section

variable {resolve : SchemaId → Run SchemaId} {flatten : SchemaId → Run Shape}
  (resolves : ∀ id, Locates core [id] (resolve id) ([·]))
  (flattens : ∀ id, Locates core [id] (flatten id) Shape.types)

include resolves flattens

theorem project_finds (id object : SchemaId) (index : String) :
    Finds core [object] (project resolve flatten id object index) := by
  refine .read fun state sound present => ?_
  cases state.projections.find? id with
  | some known => exact .pure
  | none =>
      refine .bind (resolves object) fun target => ?_
      refine .bind (.node (List.mem_cons_self ..)) fun node => ?_
      split
      · refine .bind ((flattens target).of_mem (by simp)) fun shape => ?_
        exact .bind_any ((projectShape_finds shape index).subset (List.subset_append_left ..))
          fun _ _ _ => nofun
      · exact .fail nofun

theorem shapeBehind_locates (reject : Kind → SchemaError) (other : ∀ kind id, reject kind ≠ .unknownId id)
    (target : SchemaId) : Locates core [target] (shapeBehind resolve flatten reject target) Shape.types := by
  refine .bind (resolves target) fun resolved => ?_
  refine .bind (.node (List.mem_cons_self ..)) fun node => ?_
  split
  · exact (flattens resolved).of_mem (by simp)
  · exact .fail (other node.kind)

theorem inheritParents_finds (shape : Shape) (parents : List SchemaId) :
    Finds core parents (inheritParents resolve flatten shape parents) := by
  induction parents generalizing shape with
  | nil => exact .pure
  | cons parent rest ih =>
      refine .bind ((resolves parent).of_mem (List.mem_cons_self ..)) fun resolved => ?_
      refine .bind (.node (List.mem_cons_self ..)) fun node => ?_
      cases node with
      | interface properties index parents =>
          refine .bind ((flattens resolved).of_mem (by simp)) fun inherited => ?_
          exact (ih _).subset fun _ listed => by simp [listed]
      | _ => exact .fail nofun

omit resolves in
theorem combine_finds (base : Shape) (combinator : Combinator) :
    Finds core combinator.children (combine flatten base combinator) := by
  cases combinator with
  | pick keys =>
      intro state _ _ id
      rw [combine, ofExcept_apply]
      exact pick_error base keys id
  | optional | without keys => exact .pure
  | overwrite patch => exact .bind (flattens patch) fun _ => .pure

theorem flattenNode_finds (id : SchemaId) : Finds core [id] (flattenNode resolve flatten id) := by
  refine .bind (.node (List.mem_singleton_self _)) fun node => ?_
  cases node with
  | reference _ | indexedAccess _ _ =>
      exact ((shapeBehind_locates resolves flattens .notInterfaceLike nofun id).of_mem (by simp)).finds
  | interface properties index parents =>
      exact (inheritParents_finds resolves flattens _ parents).subset fun _ listed => by
        simp [Node.children, listed]
  | mapped combinator target =>
      refine .bind ((shapeBehind_locates resolves flattens (.invalidCombinatorTarget combinator.kind) nofun
        target).of_mem (List.mem_cons_self ..)) fun base => ?_
      exact (combine_finds flattens base combinator).subset fun _ listed => by
        simp [Node.children, listed]
  | _ => exact .fail nofun

omit resolves flattens in
theorem lookupTarget_locates (target : String) : Locates core [] (lookupTarget target) ([·]) := by
  refine ⟨fun state _ _ id => ?_, fun state sound _ => ?_⟩
  · unfold lookupTarget
    cases Address.ofTarget? target with
    | none => exact nofun
    | some address =>
        simp only [bind_ok (read_apply _)]
        cases state.arena.symbol? address.path address.symbol <;> exact nofun
  · refine (lookupTarget_meets target sound).imp (fun _ same => same ▸ .refl sound) ?_
    rintro id after rfl ⟨-, early⟩ other listed
    rw [List.mem_singleton.mp listed]
    exact Nat.lt_of_lt_of_le early sound.core_le

omit resolves flattens in
theorem closeChain_finds (id : SchemaId) : Finds core [id] (closeChain id) := by
  refine .bind (.node (List.mem_singleton_self _)) fun node => ?_
  cases node <;> first | exact .pure | exact .fail nofun

theorem hop_finds (id : SchemaId) : Finds core [id] (hop (project resolve flatten) id) := by
  refine .bind (.node (List.mem_singleton_self _)) fun node => ?_
  cases node with
  | reference target =>
      exact .bind ((lookupTarget_locates target).subset (List.nil_subset _)) fun _ => .pure
  | indexedAccess object index =>
      exact .bind_any ((project_finds resolves flattens id object index).subset (by simp [Node.children]))
        fun _ _ _ => nofun
  | _ => exact .pure

theorem hop_locates (projects : ProjectMeets core (project resolve flatten)) (id : SchemaId) :
    Locates core [id] (hop (project resolve flatten) id) Option.toList := by
  refine ⟨hop_finds resolves flattens id, fun state sound present => ?_⟩
  have start := present id (List.mem_singleton_self _)
  refine (hop_meets projects sound (.inl (.inr (Nat.lt_succ_self id.index)))).imp
    (fun _ => Resolving.grows) ?_
  rintro next after resolving ⟨-, -, reached⟩ other listed
  cases next with
  | none => cases listed
  | some next =>
      cases List.mem_singleton.mp listed
      rcases reached with within | ⟨node, found, -⟩
      · exact Within.index_lt within resolving.sound.core_le
          (Nat.le_trans start (ResolverState.size_mono resolving.grown))
      · exact Arena.index_lt_size found

theorem follow_finds (projects : ProjectMeets core (project resolve flatten)) (hops : Nat)
    (visited : List SchemaId) (id : SchemaId) :
    Finds core [id] (follow (project resolve flatten) hops visited id) := by
  induction hops generalizing visited id with
  | zero => exact closeChain_finds id
  | succ hops ih =>
      by_cases met : visited.contains id = true
      · rw [follow_met met]
        exact closeChain_finds id
      · rw [follow_unmet met]
        refine .bind (hop_locates resolves flattens projects id) fun next => ?_
        cases next with
        | none => exact .pure
        | some next => exact (ih (id :: visited) next).subset (List.subset_append_left ..)

end

theorem unlessKnown_finds {chain : List SchemaId} {compute : Run Shape}
    (computes : Finds core given compute) : Finds core given (unlessKnown chain id compute) := by
  refine .read fun state _ _ => ?_
  cases state.shapes.find? id with
  | some shape => exact .pure
  | none =>
      dsimp only
      split
      · exact .fail nofun
      · exact computes

theorem locates_of_finds {limit steps : Nat} (finds : ∀ id, Finds core [id] (resolveWithin limit steps id))
    (id : SchemaId) : Locates core [id] (resolveWithin limit steps id) ([·]) := by
  refine ⟨finds id, fun state sound _ => ?_⟩
  refine (resolveWithin_meets limit steps id state sound).imp (fun _ => Resolving.grows) ?_
  rintro resolved after - ⟨-, ⟨node, found, -⟩, -⟩ other listed
  cases List.mem_singleton.mp listed
  exact Arena.index_lt_size found

theorem shapes_of_finds {limit steps : Nat} {chain : List SchemaId}
    (finds : ∀ id, Finds core [id] (flattenWithin limit steps chain id)) (id : SchemaId) :
    Locates core [id] (flattenWithin limit steps chain id) Shape.types := by
  refine ⟨finds id, fun state sound _ => ?_⟩
  refine (flattenWithin_meets limit steps chain id state sound).imp (fun _ => Resolving.grows) ?_
  exact fun shape after resolving post => shape_issued resolving.sound post.1

theorem within_finds (limit steps : Nat) :
    (∀ id, Finds core [id] (resolveWithin limit steps id)) ∧
      ∀ chain id, Finds core [id] (flattenWithin limit steps chain id) := by
  induction steps with
  | zero => exact ⟨fun _ => .fail nofun, fun _ _ => unlessKnown_finds (.fail nofun)⟩
  | succ steps ih =>
      have resolves := locates_of_finds ih.1
      have flattens := fun chain => shapes_of_finds (ih.2 chain)
      have projects : ProjectMeets core
          (project (resolveWithin limit steps) (flattenWithin limit steps [])) :=
        project_meets (resolveWithin_meets limit steps) (flattenWithin_meets limit steps [])
      refine ⟨fun id => .read fun state _ _ => ?_, fun chain id => unlessKnown_finds ?_⟩
      · exact follow_finds resolves (flattens []) projects state.arena.size [] id
      · exact .bind_any (flattenNode_finds resolves (flattens (id :: chain)) id) fun _ _ _ => nofun

theorem resolveWithin_locates (limit steps : Nat) (id : SchemaId) :
    Locates core [id] (resolveWithin limit steps id) ([·]) :=
  locates_of_finds (within_finds limit steps).1 id

theorem flattenWithin_locates (limit steps : Nat) (chain : List SchemaId) (id : SchemaId) :
    Locates core [id] (flattenWithin limit steps chain id) Shape.types :=
  shapes_of_finds ((within_finds limit steps).2 chain) id

theorem walkChain_finds (limit steps budget : Nat) (chain : CombinatorChain) (target : SchemaId) :
    Finds core [target] (walkChain limit (resolveWithin limit steps) budget chain target) := by
  induction budget generalizing chain target with
  | zero => exact .fail nofun
  | succ budget ih =>
      refine .bind (resolveWithin_locates limit steps target) fun resolved => ?_
      refine .bind (.node (List.mem_cons_self ..)) fun node => ?_
      cases node with
      | union _ | interface _ _ _ => exact .pure
      | mapped combinator inner => exact (ih _ inner).subset (by simp [Node.children])
      | _ => exact .fail nofun

theorem applyCombinators_ok (combinators : List Combinator) (target : SchemaId)
    (state : ResolverState) : ∃ top after, applyCombinators combinators target state = (.ok top, after) := by
  induction combinators generalizing target state with
  | nil => exact ⟨target, state, rfl⟩
  | cons combinator outer ih => exact ih ⟨state.arena.size⟩ _

theorem applyToEach_ok (combinators : List Combinator) (members : List SchemaId)
    (state : ResolverState) : ∃ tops after, applyToEach combinators members state = (.ok tops, after) := by
  induction members generalizing state with
  | nil => exact ⟨[], state, rfl⟩
  | cons member rest ih =>
      obtain ⟨top, middle, applied⟩ := applyCombinators_ok combinators member state
      obtain ⟨tops, after, done⟩ := ih middle
      exact ⟨top :: tops, after, (bind_ok applied).trans ((bind_ok done).trans rfl)⟩

theorem distributeTail_ok (id : SchemaId) (combinators : List Combinator) (members : List SchemaId)
    (state : ResolverState) : ∃ union, (distributeTail id combinators members state).1 = .ok union := by
  obtain ⟨tops, middle, applied⟩ := applyToEach_ok combinators members state
  rw [distributeTail, bind_ok applied]
  exact ⟨_, rfl⟩

theorem distributeNode_finds (limit steps : Nat) (id : SchemaId) :
    Finds core [id] (distributeNode limit steps id) := by
  refine .bind (.node (List.mem_singleton_self _)) fun node => ?_
  cases node with
  | mapped combinator target =>
      refine .bind_any ((walkChain_finds limit steps limit ⟨combinator, []⟩ target).subset
        (by simp [Node.children])) fun found state other => ?_
      cases found with
      | none => exact nofun
      | some found =>
          obtain ⟨union, done⟩ := distributeTail_ok id found.1.toList found.2 state
          exact fun failed => nomatch done.symm.trans failed
  | _ => exact .pure

theorem distributeWithin_locates (limit steps : Nat) (id : SchemaId) :
    Locates core [id] (distributeWithin limit steps id) Option.toList := by
  refine ⟨.read fun state _ _ => ?_, fun state sound _ => ?_⟩
  · cases state.distributions.find? id with
    | some union => exact .pure
    | none =>
        cases steps with
        | zero => exact .fail nofun
        | succ steps => exact distributeNode_finds limit steps id
  · refine (distributeWithin_meets limit steps sound).imp (fun _ grows => grows) ?_
    intro union after grows distributes other listed
    cases union with
    | none => cases listed
    | some union =>
        cases List.mem_singleton.mp listed
        exact distribution_present grows.sound distributes

section

variable {limit steps : Nat} {collect : Collected → List SchemaId → Run Collected}
  (collects : ∀ collected ids, Finds core ids (collect collected ids))

include collects

theorem visit_finds (collected : Collected) (id : SchemaId) :
    Finds core [id] (visit limit steps collect collected id) := by
  refine .bind (resolveWithin_locates limit steps id) fun resolved => ?_
  split
  · exact .pure
  · refine .bind (.node (List.mem_cons_self ..)) fun node => ?_
    cases node with
    | union members | intersection members =>
        exact (collects _ members).subset (List.subset_append_left ..)
    | interface _ _ _ | mapped _ _ =>
        refine .bind ((distributeWithin_locates limit steps resolved).of_mem (by simp)) fun union => ?_
        cases union with
        | some union => exact (collects _ [union]).subset (List.subset_append_left ..)
        | none =>
            exact .bind ((flattenWithin_locates limit steps [] resolved).of_mem (by simp)) fun _ => .pure
    | _ => exact .pure

theorem foldVisits_finds (stable : ∀ collected ids, Stable core (collect collected ids))
    (collected : Collected) (ids : List SchemaId) :
    Finds core ids (ids.foldlM (visit limit steps collect) collected) := by
  induction ids generalizing collected with
  | nil => exact .pure
  | cons id rest ih =>
      rw [List.foldlM_cons]
      have visits : Locates core [id] (visit limit steps collect collected id) fun _ => [] :=
        .of_stable (visit_finds collects collected id) (visit_stable stable limit steps collected id)
      exact .bind (visits.of_mem (List.mem_cons_self ..)) fun marked => (ih marked).subset (by simp)

end

theorem collectWithin_finds (limit steps : Nat) (collected : Collected) (ids : List SchemaId) :
    Finds core ids (collectWithin limit steps collected ids) := by
  induction steps generalizing collected ids with
  | zero => exact .fail nofun
  | succ steps ih => exact foldVisits_finds ih (collectWithin_stable limit steps) collected ids

theorem foreignFields_finds (limit : Nat) (id : SchemaId) :
    Finds core [id] (foreignFields limit id) := by
  refine .read fun state _ _ => ?_
  cases state.foreign.find? id with
  | some fields => exact .pure
  | none => exact .bind_any (collectWithin_finds limit limit .empty [id]) fun _ _ _ => nofun

theorem isInterfaceLike_finds (limit : Nat) (id : SchemaId) :
    Finds core [id] (isInterfaceLike limit id) :=
  .bind (resolveWithin_locates limit limit id) fun _ =>
    .bind (.node (List.mem_cons_self ..)) fun _ => .pure

end Conform.Resolver
