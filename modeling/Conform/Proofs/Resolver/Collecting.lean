import Conform.Proofs.Resolver.Distributing
import Conform.Proofs.Shape.Fields
import Conform.Resolver.Basic

/-! The search for foreign fields visits what can be reached, and gathers what
is declared there.  A node is marked before the branches inside it are visited,
so during the search the fields are right for all that is marked, and everything
that was marked since the start of a visit is expanded at its end. -/

namespace Conform.Resolver

open Run

variable {core : Nat} {state before middle after : ResolverState} {id resolved : SchemaId}
  {ids visited : List SchemaId} {fields : ForeignFields} {shape : Shape}
  {collected marked result : Collected}

theorem Gathers.empty : Gathers state [] .empty := by
  refine ⟨.nil, ?_, ?_, ?_⟩ <;> simp [ForeignFields.empty]

theorem Gathers.mark (gathers : Gathers state visited fields)
    (silent : ∀ shape, ¬ Declares state id shape) : Gathers state (id :: visited) fields := by
  have same (holds : Shape → Prop) : (∃ branch ∈ visited, ∃ shape, Declares state branch shape ∧
        holds shape) ↔ ∃ branch ∈ id :: visited, ∃ shape, Declares state branch shape ∧ holds shape := by
    constructor
    · rintro ⟨branch, inside, rest⟩
      exact ⟨branch, List.mem_cons_of_mem _ inside, rest⟩
    · rintro ⟨branch, inside, shape, declares, rest⟩
      rcases List.mem_cons.mp inside with rfl | inside
      · exact (silent shape declares).elim
      · exact ⟨branch, inside, shape, declares, rest⟩
  exact ⟨gathers.sorted, fun name => (gathers.names name).trans (same _),
    gathers.stringKeys.trans (same _), gathers.numberKeys.trans (same _)⟩

theorem Gathers.absorb (gathers : Gathers state visited fields) (declares : Declares state id shape) :
    Gathers state (id :: visited) (fields.absorb shape) := by
  have same (holds : Shape → Prop) : ((∃ branch ∈ visited, ∃ shape, Declares state branch shape ∧
        holds shape) ∨ holds shape) ↔
      ∃ branch ∈ id :: visited, ∃ shape, Declares state branch shape ∧ holds shape := by
    constructor
    · rintro (⟨branch, inside, rest⟩ | here)
      · exact ⟨branch, List.mem_cons_of_mem _ inside, rest⟩
      · exact ⟨id, List.mem_cons_self .., shape, declares, here⟩
    · rintro ⟨branch, inside, other, declares', here⟩
      rcases List.mem_cons.mp inside with rfl | inside
      · cases declares.shape.symm.trans declares'.shape
        exact .inr here
      · exact .inl ⟨branch, inside, other, declares', here⟩
  exact ⟨ForeignFields.sorted_absorb gathers.sorted,
    fun name => ForeignFields.mem_absorb.trans
      ((or_congr_left (gathers.names name)).trans (same fun shape => name ∈ shape.names)),
    ForeignFields.stringKeys_absorb.trans ((or_congr_left gathers.stringKeys).trans (same _)),
    ForeignFields.numberKeys_absorb.trans ((or_congr_left gathers.numberKeys).trans (same _))⟩

/-- A name is among the fields if a visited branch declares it. -/
theorem Gathers.contains_iff (gathers : Gathers state visited fields) (key : String) :
    fields.contains key = true ↔
      ∃ branch ∈ visited, ∃ shape, Declares state branch shape ∧ shape.declares key = true := by
  simp only [ForeignFields.contains, List.contains_iff_mem, gathers.names, Shape.declares, Shape.property?,
    Shape.findProperty_isSome]
  rfl

/-- A key is permitted if one visited branch takes it, by its name or by its signature. -/
theorem Gathers.permits_iff (gathers : Gathers state visited fields) (key : String) :
    fields.permits key = true ↔ ∃ branch ∈ visited, ∃ shape, Declares state branch shape ∧
      (shape.declares key = true ∨
        ∃ signature, shape.index = some signature ∧ signature.accepts key = true) := by
  simp only [ForeignFields.permits, Bool.or_eq_true, Bool.and_eq_true]
  constructor
  · rintro ((strings | declared) | ⟨numbers, numeric⟩)
    · obtain ⟨branch, inside, shape, declares, keys⟩ := gathers.stringKeys.mp strings
      obtain ⟨signature, signed, keys⟩ := Option.map_eq_some_iff.mp keys
      exact ⟨branch, inside, shape, declares, .inr ⟨signature, signed, by simp [IndexSignature.accepts, keys]⟩⟩
    · obtain ⟨branch, inside, shape, declares, here⟩ := (gathers.contains_iff key).mp declared
      exact ⟨branch, inside, shape, declares, .inl here⟩
    · obtain ⟨branch, inside, shape, declares, keys⟩ := gathers.numberKeys.mp numbers
      obtain ⟨signature, signed, keys⟩ := Option.map_eq_some_iff.mp keys
      exact ⟨branch, inside, shape, declares,
        .inr ⟨signature, signed, by simp [IndexSignature.accepts, keys, numeric]⟩⟩
  · rintro ⟨branch, inside, shape, declares, here | ⟨signature, signed, accepted⟩⟩
    · exact .inl (.inr ((gathers.contains_iff key).mpr ⟨branch, inside, shape, declares, here⟩))
    · cases keys : signature.keyType with
      | string =>
          exact .inl (.inl (gathers.stringKeys.mpr ⟨branch, inside, shape, declares, by simp [signed, keys]⟩))
      | number =>
          simp only [IndexSignature.accepts, keys] at accepted
          exact .inr ⟨gathers.numberKeys.mpr ⟨branch, inside, shape, declares, by simp [signed, keys]⟩, accepted⟩

/-- What is collected so far is right for all that is visited so far. -/
structure Gathered (state : ResolverState) (collected : Collected) : Prop where
  decided : ∀ branch ∈ collected.visited, Decided state branch
  gathers : Gathers state collected.visited collected.fields

theorem Gathered.empty : Gathered state .empty :=
  ⟨fun _ inside => (List.not_mem_nil inside).elim, .empty⟩

theorem Gathered.later (gathered : Gathered before collected) (grows : Grows core before after) :
    Gathered after collected :=
  ⟨fun branch inside => (gathered.decided branch inside).later grows.grown,
    gathered.gathers.later gathered.decided grows.grown fun _ undistributed =>
      grows.sound.undistributed_unknown undistributed⟩

theorem Gathered.mark (gathered : Gathered state collected) (decided : Decided state id)
    (silent : ∀ shape, ¬ Declares state id shape) : Gathered state (collected.mark id) := by
  refine ⟨fun branch inside => ?_, gathered.gathers.mark silent⟩
  rcases List.mem_cons.mp inside with rfl | inside
  · exact decided
  · exact gathered.decided branch inside

theorem Gathered.absorb (gathered : Gathered state collected) (declares : Declares state id shape) :
    Gathered state ((collected.mark id).absorb shape) := by
  refine ⟨fun branch inside => ?_, gathered.gathers.absorb declares⟩
  rcases List.mem_cons.mp inside with rfl | inside
  · obtain ⟨node, found, like⟩ := declares.interfaceLike
    exact ⟨node, found, fun _ => .inr ⟨shape, declares⟩⟩
  · exact gathered.decided branch inside

/-- A search from some nodes has been added to what was collected before. -/
structure Collects (state : ResolverState) (ids : List SchemaId) (collected result : Collected) :
    Prop where
  gathered : Gathered state result
  subset : collected.visited ⊆ result.visited
  covers : ∀ id ∈ ids, ∃ resolved ∈ result.visited, Resolves state id resolved
  added : ∀ branch ∈ result.visited, branch ∈ collected.visited ∨
    Expanded state result.visited branch ∧ ∃ id ∈ ids, ∃ resolved, Resolves state id resolved ∧
      Relation.ReflTransGen (Branches state) resolved branch

theorem Collects.nil (gathered : Gathered state result) (same : result.visited = collected.visited) :
    Collects state [] collected result :=
  ⟨gathered, same ▸ List.Subset.refl _, fun _ inside => (List.not_mem_nil inside).elim,
    fun _ inside => .inl (same ▸ inside)⟩

theorem Collects.met (gathered : Gathered state collected) (resolves : Resolves state id resolved)
    (inside : resolved ∈ collected.visited) : Collects state [id] collected collected := by
  refine ⟨gathered, List.Subset.refl _, fun other listed => ?_, fun _ inside => .inl inside⟩
  cases List.mem_singleton.mp listed
  exact ⟨resolved, inside, resolves⟩

/-- A visit of a node that was not marked yet. -/
theorem Collects.enter {inner : List SchemaId} (resolves : Resolves state id resolved)
    (within : Collects state inner (collected.mark resolved) result)
    (expanded : Expanded state result.visited resolved)
    (branches : ∀ child ∈ inner, ∀ other, Resolves state child other →
      Branches state resolved other) : Collects state [id] collected result := by
  have entered : resolved ∈ result.visited := within.subset (List.mem_cons_self ..)
  refine ⟨within.gathered, fun branch inside => within.subset (List.mem_cons_of_mem _ inside),
    fun other listed => ?_, fun branch inside => ?_⟩
  · cases List.mem_singleton.mp listed
    exact ⟨resolved, entered, resolves⟩
  · rcases within.added branch inside with earlier | ⟨closed, child, listed, other, leads, path⟩
    · rcases List.mem_cons.mp earlier with rfl | earlier
      · exact .inr ⟨expanded, id, List.mem_singleton_self _, _, resolves, .refl⟩
      · exact .inl earlier
    · exact .inr ⟨closed, id, List.mem_singleton_self _, resolved, resolves,
        .head (branches child listed other leads) path⟩

theorem Collects.cons {rest : List SchemaId} (first : Collects before [id] collected marked)
    (second : Collects after rest marked result) (grown : before ≤ after) :
    Collects after (id :: rest) collected result := by
  refine ⟨second.gathered, fun branch inside => second.subset (first.subset inside),
    fun other listed => ?_, fun branch inside => ?_⟩
  · rcases List.mem_cons.mp listed with rfl | listed
    · obtain ⟨resolved, entered, resolves⟩ := first.covers other (List.mem_singleton_self _)
      exact ⟨resolved, second.subset entered, resolves.later grown⟩
    · exact second.covers other listed
  · rcases second.added branch inside with earlier | ⟨closed, other, listed, rest⟩
    · rcases first.added branch earlier with earlier | ⟨closed, other, listed, resolved, leads, path⟩
      · exact .inl earlier
      · cases List.mem_singleton.mp listed
        refine .inr ⟨(closed.later grown).subset second.subset, _, List.mem_cons_self .., resolved,
          leads.later grown, ?_⟩
        exact Relation.ReflTransGen.mono (fun _ _ step => Branches.later step grown) _ _ path
    · exact .inr ⟨closed, other, List.mem_cons_of_mem _ listed, rest⟩

def CollectMeets (core : Nat) (collect : Collected → List SchemaId → Run Collected) : Prop :=
  ∀ collected ids state, state.Sound core → Gathered state collected →
    Meets (collect collected ids) state (Grows core state) fun result after =>
      Collects after ids collected result

theorem resolves_concrete {node : Node} (found : state.arena.get? id = some node)
    (concrete : node.IsConcrete) : Resolves state id id :=
  resolves_of_lasts fun _ => follow_concrete found concrete _ _

theorem Resolves.concrete {node : Node} (resolves : Resolves state id resolved)
    (found : state.arena.get? id = some node) (concrete : node.IsConcrete) : resolved = id :=
  Lasts.unique resolves (resolves_concrete found concrete)

theorem Resolves.target_concrete {node : Node} (resolves : Resolves state id resolved)
    (sound : state.Sound core) (found : state.arena.get? resolved = some node) : node.IsConcrete := by
  obtain ⟨-, ⟨node', found', concrete, -⟩, -⟩ :=
    (resolveWithin_meets 0 1 id state sound).answers resolved state resolves.now
  cases found.symm.trans found'
  exact concrete

/-- What is resolved resolves to itself. -/
theorem Resolves.again (resolves : Resolves state id resolved) (sound : state.Sound core) :
    Resolves state resolved resolved := by
  obtain ⟨-, ⟨node, found, concrete, -⟩, -⟩ :=
    (resolveWithin_meets 0 1 id state sound).answers resolved state resolves.now
  exact resolves_concrete found concrete

/-- A node without a shape declares nothing. -/
theorem silent_of_node {node : Node} (found : state.arena.get? id = some node)
    (unlike : node.isInterfaceLike = false) (shape : Shape) : ¬ Declares state id shape := by
  intro declares
  obtain ⟨node', found', like⟩ := declares.interfaceLike
  cases found.symm.trans found'
  exact Bool.false_ne_true (unlike.symm.trans like)

theorem silent_of_distribution (sound : state.Sound core) {union : SchemaId}
    (known : state.distributions.find? id = some union) (shape : Shape) :
    ¬ Declares state id shape := by
  intro declares
  cases (sound.undistributed_unknown declares.undistributed).symm.trans known

/-- A branch that declares fields of its own leads no further. -/
theorem Declares.ends {branch : SchemaId} {shape : Shape} (declares : Declares state id shape)
    (sound : state.Sound core) (path : Relation.ReflTransGen (Branches state) id branch) :
    branch = id := by
  rcases Relation.ReflTransGen.cases_head path with same | ⟨next, step, -⟩
  · exact same.symm
  · cases step with
    | union node _ _ | intersection node _ _ => exact (silent_of_node node rfl shape declares).elim
    | distributed known => exact (silent_of_distribution sound known shape declares).elim

/-- A distributed combinator leads to its union only. -/
theorem Branches.of_distribution {next union : SchemaId} (step : Branches state id next)
    (sound : state.Sound core) (known : state.distributions.find? id = some union) : next = union := by
  obtain ⟨_, _, node⟩ := sound.mapped_of_distribution known
  cases step with
  | union node' _ _ | intersection node' _ _ => cases node.symm.trans node'
  | distributed known' =>
      cases known.symm.trans known'
      rfl

theorem distribution_resolves {union : SchemaId} (sound : state.Sound core)
    (known : state.distributions.find? id = some union) : Resolves state union union := by
  obtain ⟨_, node⟩ := sound.union_of_distribution known
  exact resolves_concrete node trivial

/-- The members of a marked union or intersection are visited. -/
theorem enter_members {collect : Collected → List SchemaId → Run Collected} {node : Node}
    {members : List SchemaId} (collects : CollectMeets core collect) (sound : state.Sound core)
    (gathered : Gathered state collected) (resolves : Resolves state id resolved)
    (found : state.arena.get? resolved = some node)
    (combines : node = .union members ∨ node = .intersection members) :
    Meets (collect (collected.mark resolved) members) state (Grows core state) fun result after =>
      Collects after [id] collected result := by
  have unlike : node.isInterfaceLike = false := by rcases combines with rfl | rfl <;> rfl
  have marked : Gathered state (collected.mark resolved) :=
    gathered.mark ⟨node, found, fun like => absurd (unlike.symm.trans like) Bool.false_ne_true⟩
      (silent_of_node found unlike)
  refine (collects _ _ state sound marked).imp (fun _ grown => grown) fun result after grown within => ?_
  have later := ResolverState.get?_later found grown.grown
  refine .enter (resolves.later grown.grown) within ⟨node, later, ?_⟩ fun child listed other leads => ?_
  · rcases combines with rfl | rfl <;> exact within.covers
  · rcases combines with rfl | rfl
    · exact .union later listed leads
    · exact .intersection later listed leads

/-- The union of a marked combinator is visited, or else its fields are added. -/
theorem enter_interfaceLike {collect : Collected → List SchemaId → Run Collected} {node : Node}
    {limit steps : Nat} (collects : CollectMeets core collect) (sound : state.Sound core)
    (gathered : Gathered state collected) (resolves : Resolves state id resolved)
    (found : state.arena.get? resolved = some node) (like : node.isInterfaceLike = true) :
    Meets (do
        match ← distributeWithin limit steps resolved with
        | some union => collect (collected.mark resolved) [union]
        | none =>
            let shape ← flattenWithin limit steps [] resolved
            return (collected.mark resolved).absorb shape) state (Grows core state)
      fun result after => Collects after [id] collected result := by
  refine .bind (distributeWithin_meets limit steps sound) ?_
  intro answer middle grows distributes
  have found' := ResolverState.get?_later found grows.grown
  have gathered' := gathered.later grows
  have expanded {visited : List SchemaId} {state : ResolverState}
      (found : state.arena.get? resolved = some node)
      (known : (∃ union ∈ visited, state.distributions.find? resolved = some union) ∨
        ∃ shape, Declares state resolved shape) : Expanded state visited resolved := by
    refine ⟨node, found, ?_⟩
    cases node <;> first | exact known | cases like
  cases answer with
  | some union =>
      have marked : Gathered middle (collected.mark resolved) :=
        gathered'.mark ⟨node, found', fun _ => .inl ⟨union, distributes⟩⟩
          (silent_of_distribution grows.sound distributes)
      refine (collects _ _ middle grows.sound marked).imp (fun _ => grows.trans) ?_
      intro result after grown within
      have known := ResolverState.distribution_later distributes grown.grown
      obtain ⟨_, node⟩ := grown.sound.union_of_distribution known
      refine .enter (resolves.later (le_trans grows.grown grown.grown)) within
        (expanded (ResolverState.get?_later found' grown.grown) (.inl ⟨union, ?_, known⟩))
        fun child listed other leads => ?_
      · obtain ⟨target, inside, leads⟩ := within.covers union (List.mem_singleton_self _)
        cases leads.concrete node trivial
        exact inside
      · cases List.mem_singleton.mp listed
        cases leads.concrete node trivial
        exact .distributed known
  | none =>
      have undistributed := distributes node found' like
      refine .bind ((flattenWithin_meets limit steps [] resolved middle grows.sound).imp
        (fun _ resolving => grows.trans resolving.grows)
        (fun _ _ resolving post => And.intro resolving.grows post)) ?_
      intro shape after grown post
      obtain ⟨last, known, _⟩ := post
      have declares : Declares after resolved shape := ⟨undistributed.later last.grown, known⟩
      refine .pure grown (.enter (resolves.later grown.grown)
        (.nil ((gathered'.later last).absorb declares) rfl)
        (expanded (ResolverState.get?_later found grown.grown) (.inr ⟨shape, declares⟩)) ?_)
      intro child listed
      cases listed

theorem visit_meets {limit steps : Nat} {collect : Collected → List SchemaId → Run Collected}
    (collects : CollectMeets core collect) (sound : state.Sound core)
    (gathered : Gathered state collected) :
    Meets (visit limit steps collect collected id) state (Grows core state) fun result after =>
      Collects after [id] collected result := by
  refine .bind ((resolveWithin_meets limit steps id state sound).imp
    (fun _ => Resolving.grows) fun _ _ _ post => post.1) ?_
  intro resolved middle grows resolves
  have gathered' := gathered.later grows
  by_cases met : collected.visited.contains resolved = true
  · simp only [met, if_true]
    exact .pure grows (.met gathered' resolves (List.elem_iff.mp met))
  · simp only [met]
    refine .bind (.node resolved grows) ?_
    rintro node _ - ⟨found, rfl⟩
    cases node with
    | union members =>
        exact (enter_members collects grows.sound gathered' resolves found (.inl rfl)).imp
          (fun _ => grows.trans) fun _ _ _ post => post
    | intersection members =>
        exact (enter_members collects grows.sound gathered' resolves found (.inr rfl)).imp
          (fun _ => grows.trans) fun _ _ _ post => post
    | interface _ _ _ | mapped _ _ =>
        exact (enter_interfaceLike collects grows.sound gathered' resolves found rfl).imp
          (fun _ => grows.trans) fun _ _ _ post => post
    | _ =>
        have marked : Gathered _ (collected.mark resolved) :=
          gathered'.mark ⟨_, found, fun like => nomatch like⟩ (silent_of_node found rfl)
        exact .pure grows (.enter resolves (.nil marked rfl) ⟨_, found, trivial⟩
          fun _ listed => (List.not_mem_nil listed).elim)

theorem foldVisits_meets {limit steps : Nat} {collect : Collected → List SchemaId → Run Collected}
    (collects : CollectMeets core collect) :
    CollectMeets core fun collected ids => ids.foldlM (visit limit steps collect) collected := by
  intro collected ids
  induction ids generalizing collected with
  | nil => exact fun state sound gathered => .pure (.refl sound) (.nil gathered rfl)
  | cons id rest ih =>
      intro state sound gathered
      simp only [List.foldlM_cons]
      refine .bind (visit_meets collects sound gathered) ?_
      intro marked middle grows first
      refine (ih marked middle grows.sound first.gathered).imp (fun _ => grows.trans) ?_
      exact fun result after grown second => first.cons second grown.grown

theorem collectWithin_meets (limit steps : Nat) : CollectMeets core (collectWithin limit steps) := by
  induction steps with
  | zero => exact fun _ _ _ sound _ => .fail (.refl sound)
  | succ steps ih => exact foldVisits_meets ih

/-- A search from a single node visits all that can be reached, and nothing else. -/
theorem Collects.explored (collects : Collects state [id] .empty result) :
    ∃ resolved, Resolves state id resolved ∧ resolved ∈ result.visited ∧
      ∀ branch ∈ result.visited, Expanded state result.visited branch ∧
        Relation.ReflTransGen (Branches state) resolved branch := by
  obtain ⟨resolved, inside, resolves⟩ := collects.covers id (List.mem_singleton_self _)
  refine ⟨resolved, resolves, inside, fun branch entered => ?_⟩
  rcases collects.added branch entered with none | ⟨expanded, other, listed, _, leads, path⟩
  · exact (List.not_mem_nil none).elim
  · cases List.mem_singleton.mp listed
    cases Lasts.unique leads resolves
    exact ⟨expanded, path⟩

/-- It gathers all fields that can be reached. -/
theorem Collects.surveys (collects : Collects state [id] .empty result) :
    Surveys state id result.fields := by
  obtain ⟨resolved, resolves, inside, explored⟩ := collects.explored
  exact ⟨result.visited, resolved, resolves, inside, explored, collects.gathered.gathers⟩

/-- What is kept surveys, be it new or not. -/
theorem Surveys.kept (surveys : Surveys state id fields) (sound : state.Sound core) :
    Surveys state id (state.foreign.settle id fields).1 := by
  cases known : state.foreign.find? id with
  | some earlier =>
      rw [Memo.settle_known known]
      exact sound.foreign id earlier known
  | none =>
      rw [Memo.settle_unknown known]
      exact surveys

/-- The foreign fields of a node are those of all branches that it reaches. -/
theorem foreignFields_meets (limit : Nat) (sound : state.Sound core) :
    Meets (foreignFields limit id) state (Grows core state) fun fields after =>
      after.foreign.find? id = some fields := by
  refine .bind (.read _ (.refl sound)) ?_
  rintro _ _ stays ⟨rfl, rfl⟩
  cases known : state.foreign.find? id with
  | some fields => exact .pure stays known
  | none =>
      refine .bind (collectWithin_meets limit limit .empty [id] state sound .empty) ?_
      intro result middle grows collects
      exact .of_ok keepForeign_apply ⟨le_trans grows.grown (le_keepForeign middle id result.fields),
        grows.sound.keepForeign collects.surveys, grows.fresh⟩ (Memo.find?_settle _ _ _)

end Conform.Resolver
