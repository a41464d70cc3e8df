import Conform.Proofs.Agreement.Tracing

/-! The search for foreign fields side by side.  The two runs mark the same
nodes, except that the left one can meet another node with the same counterpart.
It then visits that node alone, and nothing new is found behind it: what has been
marked on the right is either expanded by then or still being visited, and the
only nodes that resolution adds and that can be met while they are being visited
are unions with `undefined`. -/

namespace Conform.Agreement

open Run Resolver

variable {core floor rank : Nat} {world next : World} {state before after : ResolverState}
  {id other target otherTarget : SchemaId} {ids otherIds visited otherVisited : List SchemaId}
  {collected otherCollected result otherResult : Collected} {awaited : Option SchemaId}

/-- The place of a combinator or of the union that stands for it.  From one to
the next the rank increases, so a search never comes back. -/
inductive Ranked (state : ResolverState) : SchemaId → Nat → Prop
  | mapped {id : SchemaId} {combinator : Combinator} {target : SchemaId}
      (node : state.arena.get? id = some (.mapped combinator target)) :
      Ranked state id (2 * id.index + 2)
  | union {origin union : SchemaId} (known : state.distributions.find? origin = some union) :
      Ranked state union (2 * origin.index + 3)

theorem Ranked.later (ranked : Ranked before id rank) (grown : before ≤ after) :
    Ranked after id rank := by
  cases ranked with
  | mapped node => exact .mapped (ResolverState.get?_later node grown)
  | union known => exact .union (ResolverState.distribution_later known grown)

theorem Ranked.unique {otherRank : Nat} (sound : state.Sound core) (ranked : Ranked state id rank)
    (again : Ranked state id otherRank) : rank = otherRank := by
  cases ranked with
  | mapped node =>
      cases again with
      | mapped _ => rfl
      | union known =>
          obtain ⟨_, union⟩ := sound.union_of_distribution known
          cases node.symm.trans union
  | union known =>
      cases again with
      | mapped node =>
          obtain ⟨_, union⟩ := sound.union_of_distribution known
          cases node.symm.trans union
      | union known' => rw [sound.distributions_injective _ _ _ known known']

theorem Ranked.concrete (sound : state.Sound core) (ranked : Ranked state id rank) :
    ∃ node, state.arena.get? id = some node ∧ node.IsConcrete := by
  cases ranked with
  | mapped node => exact ⟨_, node, trivial⟩
  | union known =>
      obtain ⟨_, union⟩ := sound.union_of_distribution known
      exact ⟨_, union, trivial⟩

/-- A search that is inside ranked nodes meets only nodes from the floor on. -/
def Ahead (state : ResolverState) (floor : Nat) (id : SchemaId) : Prop :=
  floor = 0 ∨ ∃ rank, Ranked state id rank ∧ floor ≤ rank

theorem Ahead.later (ahead : Ahead before floor id) (grown : before ≤ after) : Ahead after floor id :=
  ahead.imp_right fun ⟨rank, ranked, above⟩ => ⟨rank, ranked.later grown, above⟩

theorem Ahead.resolved (sound : state.Sound core) (ahead : Ahead state floor id)
    (resolves : Resolves state id target) : Ahead state floor target := by
  rcases ahead with none | ⟨rank, ranked, above⟩
  · exact .inl none
  · obtain ⟨node, found, concrete⟩ := ranked.concrete sound
    cases resolves.concrete found concrete
    exact .inr ⟨rank, ranked, above⟩

theorem Tower.behind {origin bottom top : SchemaId} {combinators : List Combinator}
    (tower : Tower core state origin combinators bottom top) (applied : combinators ≠ []) :
    Ranked state top (2 * top.index + 2) ∧ origin.index < top.index := by
  induction tower with
  | base => exact (applied rfl).elim
  | apply node late behind rest ih =>
      cases rest with
      | base => exact ⟨.mapped node, behind⟩
      | apply => exact ih (List.cons_ne_nil _ _)

/-- The members of a union that stands for a combinator come behind it. -/
theorem members_ahead {origin union member : SchemaId} {members : List SchemaId}
    (sound : state.Sound core) (known : state.distributions.find? origin = some union)
    (node : state.arena.get? union = some (.union members)) (listed : member ∈ members) :
    Ranked state member (2 * member.index + 2) ∧ origin.index < member.index := by
  obtain ⟨_, _, _, chain, _, _, _, _, node', towers⟩ := (sound.distributions _ _ known).computed
  cases node.symm.trans node'
  obtain ⟨bottom, -, tower⟩ := exists_origin towers listed
  exact Tower.behind tower (List.cons_ne_nil _ _)

/-- What is known of the nodes that are marked on the right.  The first member of
a union with `undefined` may still be awaited, and nodes below the floor may
still be visited. -/
structure Marked (core : Nat) (state : ResolverState) (visited : List SchemaId) (floor : Nat)
    (awaited : Option SchemaId) : Prop where
  optional : ∀ id ∈ visited, core ≤ id.index → ∀ type,
    state.arena.get? id = some (.union [type, Arena.undefined]) →
    awaited = some type ∨ ∃ target ∈ visited, Resolves state type target
  ranked : ∀ id ∈ visited, ∀ rank, Ranked state id rank → floor ≤ rank → Expanded state visited id

theorem Marked.resolve (marked : Marked core state visited floor (some other))
    (resolves : Resolves state other target) (inside : target ∈ visited) :
    Marked core state visited floor none := by
  refine ⟨fun id listed late type node => ?_, marked.ranked⟩
  rcases marked.optional id listed late type node with same | known
  · cases same
    exact .inr ⟨target, inside, resolves⟩
  · exact .inr known

theorem Marked.await (marked : Marked core state visited floor none) (awaited : Option SchemaId) :
    Marked core state visited floor awaited :=
  ⟨fun id listed late type node => .inr
    ((marked.optional id listed late type node).resolve_left fun none => nomatch none),
    marked.ranked⟩

/-- A node is marked before what is behind it is visited. -/
theorem Marked.enter {above : Nat} {first : Option SchemaId}
    (marked : Marked core state visited floor (some other)) (resolves : Resolves state other target)
    (below : ∀ rank, Ranked state target rank → rank < above) (floor_le : floor ≤ above)
    (awaits : ∀ type, state.arena.get? target = some (.union [type, Arena.undefined]) →
      first = some type) : Marked core state (target :: visited) above first := by
  refine ⟨fun id listed late type node => ?_, fun id listed rank ranked from_above => ?_⟩
  · rcases List.mem_cons.mp listed with rfl | listed
    · exact .inl (awaits type node)
    · rcases marked.optional id listed late type node with same | ⟨onward, inside, leads⟩
      · cases same
        exact .inr ⟨target, List.mem_cons_self .., resolves⟩
      · exact .inr ⟨onward, List.mem_cons_of_mem _ inside, leads⟩
  · rcases List.mem_cons.mp listed with rfl | listed
    · exact (Nat.not_lt.mpr from_above (below rank ranked)).elim
    · exact (marked.ranked id listed rank ranked (Nat.le_trans floor_le from_above)).subset
        (List.subset_cons_self _ _)

/-- A rank does not come late: a new union is no node that is there. -/
theorem Ranked.earlier {node : Node} (ranked : Ranked after id rank) (grows : Grows core before after)
    (found : before.arena.get? id = some node) : Ranked before id rank := by
  cases ranked with
  | mapped node' =>
      cases (ResolverState.get?_later found grows.grown).symm.trans node'
      exact .mapped found
  | union known =>
      rcases grows.fresh _ _ known with earlier | late
      · exact .union earlier
      · exact (Nat.not_lt.mpr late (Arena.index_lt_size found)).elim

/-- After a search everything that it has marked is expanded. -/
theorem Marked.collects (marked : Marked core before collected.visited floor awaited)
    (gathered : Gathered before collected) (grows : Grows core before after)
    (collects : Collects after ids collected result)
    (covered : ∀ type, awaited = some type → type ∈ ids) :
    Marked core after result.visited floor none := by
  refine ⟨fun id listed late type node => .inr ?_, fun id listed rank ranked from_floor => ?_⟩
  · rcases collects.added id listed with earlier | ⟨expanded, -⟩
    · obtain ⟨node', found, -⟩ := gathered.decided id earlier
      cases (ResolverState.get?_later found grows.grown).symm.trans node
      rcases marked.optional id earlier late type found with awaits | ⟨target, inside, leads⟩
      · exact collects.covers type (covered type awaits)
      · exact ⟨target, collects.subset inside, leads.later grows.grown⟩
    · exact Expanded.member_mem expanded node (.inl rfl) (List.mem_cons_self ..)
  · rcases collects.added id listed with earlier | ⟨expanded, -⟩
    · obtain ⟨node', found, -⟩ := gathered.decided id earlier
      exact ((marked.ranked id earlier rank (ranked.earlier grows found) from_floor).later
        grows.grown).subset collects.subset
    · exact expanded

/-- What is marked on the left has its counterpart on the right, and the other
way round. -/
structure Paired (world : World) (visited otherVisited : List SchemaId) : Prop where
  forth : ∀ id ∈ visited, ∃ other, world.ids id other ∧
    (other ∈ otherVisited ∨ other = Arena.undefined)
  back : ∀ other ∈ otherVisited, ∃ id ∈ visited, world.ids id other

theorem Paired.nil : Paired world [] [] :=
  ⟨fun _ listed => (List.not_mem_nil listed).elim, fun _ listed => (List.not_mem_nil listed).elim⟩

theorem Paired.later (paired : Paired world visited otherVisited) (grown : world.Extends next) :
    Paired next visited otherVisited := by
  refine ⟨fun id listed => ?_, fun other listed => ?_⟩
  · obtain ⟨other, pair, inside⟩ := paired.forth id listed
    exact ⟨other, grown.ids _ _ pair, inside⟩
  · obtain ⟨id, inside, pair⟩ := paired.back other listed
    exact ⟨id, inside, grown.ids _ _ pair⟩

theorem Paired.mark (paired : Paired world visited otherVisited) (pair : world.ids target otherTarget) :
    Paired world (target :: visited) (otherTarget :: otherVisited) := by
  refine ⟨fun id listed => ?_, fun other listed => ?_⟩
  · rcases List.mem_cons.mp listed with rfl | listed
    · exact ⟨otherTarget, pair, .inl (List.mem_cons_self ..)⟩
    · obtain ⟨other, pair, inside⟩ := paired.forth id listed
      exact ⟨other, pair, inside.imp_left (List.mem_cons_of_mem _)⟩
  · rcases List.mem_cons.mp listed with rfl | listed
    · exact ⟨target, List.mem_cons_self .., pair⟩
    · obtain ⟨id, inside, pair⟩ := paired.back other listed
      exact ⟨id, List.mem_cons_of_mem _ inside, pair⟩

/-- Another node on the left for one that is marked on the right leads to nothing
new. -/
theorem closed_of_marked (linked : world.Linked core) (paired : Paired world visited otherVisited)
    (marked : Marked core world.right otherVisited floor none) :
    Closed core world.right visited fun other => other = Arena.undefined ∨
      other ∈ otherVisited ∧ Ahead world.right floor other := by
  rintro other (rfl | ⟨listed, ahead⟩)
  · exact .inr ⟨_, linked.right.undefined, trivial⟩
  have ranked_confined {rank : Nat} (ranked : Ranked world.right other rank) :
      Confined world.right (fun other => other = Arena.undefined ∨
        other ∈ otherVisited ∧ Ahead world.right floor other) other := by
    have above : floor ≤ rank := by
      rcases ahead with rfl | ⟨rank', ranked', above⟩
      · exact Nat.zero_le _
      · rw [ranked.unique linked.right ranked']
        exact above
    have expanded := marked.ranked other listed rank ranked above
    cases ranked with
    | @mapped _ combinator bottom node =>
        refine ⟨_, node, ?_⟩
        rcases Expanded.interfaceLike expanded node rfl with ⟨union, inside, known⟩ | declares
        · refine .inl ⟨union, .inr ⟨inside, .inr ⟨_, .union known, ?_⟩⟩, known⟩
          omega
        · exact .inr declares
    | @union origin _ known =>
        obtain ⟨_, _, _, _, _, members, _, _, node, _⟩ :=
          (linked.right.distributions _ _ known).computed
        refine ⟨_, node, fun member member_listed => ?_⟩
        obtain ⟨member_ranked, behind⟩ := members_ahead linked.right known node member_listed
        obtain ⟨target, inside, leads⟩ :=
          Expanded.member_mem expanded node (.inl rfl) member_listed
        obtain ⟨node', found, concrete⟩ := member_ranked.concrete linked.right
        cases leads.concrete found concrete
        exact ⟨member, .inr ⟨inside, .inr ⟨_, member_ranked, by omega⟩⟩, leads⟩
  by_cases synthetic : Synthetic core world.right other
  · obtain ⟨node, found, mapped | ⟨type, rfl⟩ | ⟨origin, known⟩⟩ := synthetic.added
    · cases node <;> first | exact mapped.elim | exact .inr (ranked_confined (.mapped found))
    · by_cases ranked : ∃ rank, Ranked world.right other rank
      · obtain ⟨rank, ranked⟩ := ranked
        exact .inr (ranked_confined ranked)
      · have none : floor = 0 := ahead.resolve_right fun ⟨rank, here, _⟩ => ranked ⟨rank, here⟩
        refine .inr ⟨_, found, fun member member_listed => ?_⟩
        rcases List.mem_cons.mp member_listed with rfl | member_listed
        · obtain ⟨target, inside, leads⟩ := (marked.optional other listed synthetic.late _
            found).resolve_left fun none => nomatch none
          exact ⟨target, .inr ⟨inside, .inl none⟩, leads⟩
        · cases List.mem_singleton.mp member_listed
          exact ⟨_, .inl rfl, resolves_concrete linked.right.undefined trivial⟩
    · exact .inr (ranked_confined (.union known))
  · obtain ⟨id, inside, pair⟩ := paired.back other listed
    rcases linked.fibre _ _ pair with rfl | synthetic'
    · exact .inl ⟨inside, synthetic⟩
    · exact (synthetic synthetic').elim

theorem Marked.later (marked : Marked core before collected.visited floor awaited)
    (gathered : Gathered before collected) (grows : Grows core before after) :
    Marked core after collected.visited floor awaited := by
  refine ⟨fun id listed late type node => ?_, fun id listed rank ranked from_floor => ?_⟩
  · obtain ⟨node', found, -⟩ := gathered.decided id listed
    cases (ResolverState.get?_later found grows.grown).symm.trans node
    exact (marked.optional id listed late type found).imp_right
      fun ⟨target, inside, leads⟩ => ⟨target, inside, leads.later grows.grown⟩
  · obtain ⟨node', found, -⟩ := gathered.decided id listed
    exact (marked.ranked id listed rank (ranked.earlier grows found) from_floor).later grows.grown

def CollectPairs (core : Nat) (collect collectOther : Collected → List SchemaId → Run Collected) :
    Prop :=
  ∀ world collected otherCollected ids otherIds floor, world.Linked core →
    Gathered world.right otherCollected → Paired world collected.visited otherCollected.visited →
    Marked core world.right otherCollected.visited floor otherIds.head? →
    List.Forall₂ world.ids ids otherIds → (∀ other ∈ otherIds, Ahead world.right floor other) →
    Agrees core False world (collect collected ids) (collectOther otherCollected otherIds)
      fun result otherResult next => Paired next result.visited otherResult.visited

/-- A node that both runs enter. -/
structure Entering (core : Nat) (world : World) (collected otherCollected : Collected) (floor : Nat)
    (target otherTarget : SchemaId) : Prop where
  linked : world.Linked core
  gathered : Gathered world.right otherCollected
  paired : Paired world collected.visited otherCollected.visited
  marked : ∃ other, Marked core world.right otherCollected.visited floor (some other) ∧
    Resolves world.right other otherTarget
  ahead : Ahead world.right floor otherTarget
  pair : world.ids target otherTarget

theorem Entering.later (entering : Entering core world collected otherCollected floor target otherTarget)
    (grown : world.Extends next) (linked : next.Linked core) (grows : Grows core world.right next.right) :
    Entering core next collected otherCollected floor target otherTarget := by
  obtain ⟨other, marked, resolves⟩ := entering.marked
  exact ⟨linked, entering.gathered.later grows, entering.paired.later grown,
    ⟨other, marked.later entering.gathered grows, resolves.later grown.right⟩,
    entering.ahead.later grown.right, grown.ids _ _ entering.pair⟩

section

variable {collect collectOther : Collected → List SchemaId → Run Collected}

/-- The part behind a node that is new on both sides. -/
theorem Entering.onward
    (entering : Entering core world collected otherCollected floor target otherTarget)
    (pairs : CollectPairs core collect collectOther) {above : Nat}
    (decided : Decided world.right otherTarget)
    (silent : ∀ shape, ¬ Declares world.right otherTarget shape)
    (below : ∀ rank, Ranked world.right otherTarget rank → rank < above) (floor_le : floor ≤ above)
    (related : List.Forall₂ world.ids ids otherIds)
    (awaits : ∀ type, world.right.arena.get? otherTarget = some (.union [type, Arena.undefined]) →
      otherIds.head? = some type)
    (ahead : ∀ other ∈ otherIds, Ahead world.right above other) :
    Agrees core False world (collect (collected.mark target) ids)
      (collectOther (otherCollected.mark otherTarget) otherIds)
      fun result otherResult next => Paired next result.visited otherResult.visited := by
  obtain ⟨other, marked, resolves⟩ := entering.marked
  exact pairs world _ _ _ _ above entering.linked (entering.gathered.mark decided silent)
    (entering.paired.mark entering.pair) (marked.enter resolves below floor_le awaits) related ahead

theorem Entering.members {members others : List SchemaId} {otherNode : Node}
    (entering : Entering core world collected otherCollected floor target otherTarget)
    (pairs : CollectPairs core collect collectOther)
    (found : world.right.arena.get? otherTarget = some otherNode)
    (combines : otherNode = .union others ∨ otherNode = .intersection others)
    (related : List.Forall₂ world.ids members others) :
    Agrees core False world (collect (collected.mark target) members)
      (collectOther (otherCollected.mark otherTarget) others)
      fun result otherResult next => Paired next result.visited otherResult.visited := by
  have sound := entering.linked.right
  have unlike : otherNode.isInterfaceLike = false := by rcases combines with rfl | rfl <;> rfl
  have decided : Decided world.right otherTarget :=
    ⟨otherNode, found, fun like => absurd (unlike.symm.trans like) Bool.false_ne_true⟩
  have silent := silent_of_node found unlike
  have awaits (type : SchemaId)
      (node : world.right.arena.get? otherTarget = some (.union [type, Arena.undefined])) :
      others.head? = some type := by
    cases found.symm.trans node
    rcases combines with same | same <;> cases same
    rfl
  by_cases ranked : ∃ rank, Ranked world.right otherTarget rank
  · obtain ⟨rank, ranked⟩ := ranked
    have floor_le : floor ≤ rank + 1 := by
      rcases entering.ahead with rfl | ⟨rank', ranked', above⟩
      · exact Nat.zero_le _
      · rw [ranked.unique sound ranked']
        exact Nat.le_succ_of_le above
    refine entering.onward pairs decided silent
      (fun rank' ranked' => by rw [ranked.unique sound ranked']; exact Nat.lt_succ_self _) floor_le
      related awaits fun member listed => ?_
    cases ranked with
    | mapped node =>
        cases found.symm.trans node
        rcases combines with same | same <;> cases same
    | union known =>
        obtain ⟨_, node⟩ := sound.union_of_distribution known
        cases found.symm.trans node
        rcases combines with same | same <;> cases same
        obtain ⟨member_ranked, behind⟩ := members_ahead sound known node listed
        exact .inr ⟨_, member_ranked, by omega⟩
  · have none : floor = 0 :=
      entering.ahead.resolve_right fun ⟨rank, here, _⟩ => ranked ⟨rank, here⟩
    exact entering.onward pairs decided silent (fun rank here => (ranked ⟨rank, here⟩).elim)
      (Nat.le_of_eq none) related awaits fun _ _ => .inl rfl

theorem Entering.interfaceLike {limit steps limit' steps' : Nat}
    (entering : Entering core world collected otherCollected floor target otherTarget)
    (pairs : CollectPairs core collect collectOther) (steps_le : steps ≤ steps')
    (limit_le : limit ≤ limit') :
    Agrees core False world (do
        match ← distributeWithin limit steps target with
        | some union => collect (collected.mark target) [union]
        | none =>
            let shape ← flattenWithin limit steps [] target
            return (collected.mark target).absorb shape) (do
        match ← distributeWithin limit' steps' otherTarget with
        | some union => collectOther (otherCollected.mark otherTarget) [union]
        | none =>
            let shape ← flattenWithin limit' steps' [] otherTarget
            return (otherCollected.mark otherTarget).absorb shape)
      fun result otherResult next => Paired next result.visited otherResult.visited := by
  have enough : ¬ (steps' < steps ∨ limit' < limit) := by omega
  refine .bind (((distributeWithin_agrees entering.linked entering.pair).weaken
    fun excuse => enough excuse).and_right
    (distributeWithin_meets limit' steps' entering.linked.right)) ?_
  rintro answer otherAnswer middle grown linked ⟨answers, grows, distributes⟩
  have entering' := entering.later grown linked grows
  cases answers with
  | none =>
      refine .bind ((flattenWithin_agrees limit steps limit' steps' middle _ _ linked
        entering'.pair).weaken fun excuse => enough (.inl excuse)) ?_
      rintro shape otherShape last grown' linked' -
      exact .pure linked' ((entering'.paired.mark entering'.pair).later grown')
  | @some union otherUnion pair =>
      have known : middle.right.distributions.find? otherTarget = some otherUnion := distributes
      obtain ⟨_, _, node⟩ := linked.right.mapped_of_distribution known
      have ranked : Ranked middle.right otherTarget (2 * otherTarget.index + 2) := .mapped node
      have floor_le : floor ≤ 2 * otherTarget.index + 3 := by
        rcases entering'.ahead with rfl | ⟨rank', ranked', above⟩
        · exact Nat.zero_le _
        · rw [← ranked.unique linked.right ranked'] at above
          exact Nat.le_succ_of_le above
      refine entering'.onward pairs ⟨_, node, fun _ => .inl ⟨otherUnion, known⟩⟩
        (silent_of_distribution linked.right known)
        (fun rank' ranked' => by rw [← ranked.unique linked.right ranked']; exact Nat.lt_succ_self _)
        floor_le (.cons pair .nil) (fun type node' => ?_) fun other listed => ?_
      · cases node.symm.trans node'
      · cases List.mem_singleton.mp listed
        exact .inr ⟨_, .union known, Nat.le_refl _⟩

theorem enter_pairs {limit steps limit' steps' : Nat}
    (entering : Entering core world collected otherCollected floor target otherTarget)
    (pairs : CollectPairs core collect collectOther)
    (traces : ∀ visited, CollectTraces core visited collect) (steps_le : steps ≤ steps')
    (limit_le : limit ≤ limit') :
    Agrees core False world (enter limit steps collect collected target)
      (enter limit' steps' collectOther otherCollected otherTarget)
      fun result otherResult next => Paired next result.visited otherResult.visited := by
  have linked := entering.linked
  obtain ⟨other, marked, resolves⟩ := entering.marked
  by_cases met' : otherCollected.visited.contains otherTarget = true
  · have inside := List.elem_iff.mp met'
    have closed := closed_of_marked linked entering.paired (marked.resolve resolves inside)
    have alone : Agrees core False world (enter limit steps collect collected target) (pure ()) _ :=
      enter_traces (traces collected.visited) linked closed (List.Subset.refl _) entering.pair
        (.inr ⟨inside, entering.ahead⟩)
    have skipped : enter limit' steps' collectOther otherCollected otherTarget =
        pure otherCollected := by
      unfold enter
      rw [if_pos met']
    rw [skipped]
    refine alone.answer_right fun result middle grown linked' traced => ?_
    have paired := entering.paired.later grown
    refine ⟨fun id listed => ?_, fun other listed => ?_⟩
    · rcases traced.2.2 id listed with earlier | ⟨other, pair, rfl | ⟨listed, -⟩⟩
      · exact paired.forth id earlier
      · exact ⟨_, pair, .inr rfl⟩
      · exact ⟨other, pair, .inl listed⟩
    · obtain ⟨id, listed, pair⟩ := paired.back other listed
      exact ⟨id, traced.2.1 listed, pair⟩
  by_cases met : collected.visited.contains target = true
  · obtain ⟨otherId, pair, inside⟩ := entering.paired.forth target (List.elem_iff.mp met)
    cases linked.functional _ _ _ entering.pair pair
    rcases inside with listed | rfl
    · exact (met' (List.elem_iff.mpr listed)).elim
    · have ran : enter limit steps collect collected target = pure collected := by
        unfold enter
        rw [if_pos met]
      have ran' : enter limit' steps' collectOther otherCollected Arena.undefined world.right =
          (.ok (otherCollected.mark Arena.undefined), world.right) := by
        unfold enter
        rw [if_neg met']
        exact (bind_ok (node_apply linked.right.undefined)).trans rfl
      refine .done (by rw [ran, pure_apply]) ran' (.refl world) linked ?_
      refine ⟨fun id listed => ?_, fun other listed => ?_⟩
      · exact (entering.paired.forth id listed).imp fun _ => And.imp_right
          (Or.imp_left (List.mem_cons_of_mem _))
      · rcases List.mem_cons.mp listed with rfl | listed
        · exact ⟨target, List.elem_iff.mp met, pair⟩
        · exact entering.paired.back other listed
  unfold enter
  rw [if_neg met, if_neg met']
  refine .bind (.node linked entering.pair) ?_
  rintro node otherNode _ - - ⟨-, found, same, rfl⟩
  cases same with
  | union members => exact entering.members pairs found (.inl rfl) members
  | intersection members => exact entering.members pairs found (.inr rfl) members
  | interface _ _ _ => exact entering.interfaceLike pairs steps_le limit_le
  | mapped _ _ => exact entering.interfaceLike pairs steps_le limit_le
  | plain plain =>
      cases node <;>
        first | exact plain.elim | exact .pure linked (entering.paired.mark entering.pair)
  | _ => exact .pure linked (entering.paired.mark entering.pair)

theorem visit_pairs {limit steps limit' steps' : Nat} (linked : world.Linked core)
    (gathered : Gathered world.right otherCollected)
    (paired : Paired world collected.visited otherCollected.visited)
    (marked : Marked core world.right otherCollected.visited floor (some other))
    (related : world.ids id other) (ahead : Ahead world.right floor other)
    (pairs : CollectPairs core collect collectOther)
    (traces : ∀ visited, CollectTraces core visited collect) (steps_le : steps ≤ steps')
    (limit_le : limit ≤ limit') :
    Agrees core False world (visit limit steps collect collected id)
      (visit limit' steps' collectOther otherCollected other)
      fun result otherResult next => Paired next result.visited otherResult.visited := by
  rw [visit_eq, visit_eq]
  refine .bind (((resolveWithin_agrees limit steps limit' steps' world id other linked
    related).weaken (Nat.not_lt.mpr steps_le)).and_right
    (resolveWithin_meets limit' steps' other world.right linked.right)) ?_
  rintro target otherTarget middle grown linked' ⟨pair, resolving, resolves, -⟩
  exact enter_pairs
    { linked := linked'
      gathered := gathered.later resolving.grows
      paired := paired.later grown
      marked := ⟨other, marked.later gathered resolving.grows, resolves⟩
      ahead := (ahead.later grown.right).resolved linked'.right resolves
      pair := pair } pairs traces steps_le limit_le

theorem foldVisits_pairs {limit steps limit' steps' : Nat}
    (pairs : CollectPairs core collect collectOther) (meets : CollectMeets core collectOther)
    (traces : ∀ visited, CollectTraces core visited collect) (steps_le : steps ≤ steps')
    (limit_le : limit ≤ limit') :
    CollectPairs core (fun collected ids => ids.foldlM (visit limit steps collect) collected)
      fun collected ids => ids.foldlM (visit limit' steps' collectOther) collected := by
  intro world collected otherCollected ids
  induction ids generalizing world collected otherCollected with
  | nil =>
      intro otherIds floor linked _ paired _ related _
      cases related
      exact .pure linked paired
  | cons id rest ih =>
      intro otherIds floor linked gathered paired marked related ahead
      obtain ⟨other, otherRest, here, rest_related, rfl⟩ := List.forall₂_cons_left_iff.mp related
      simp only [List.foldlM_cons]
      refine .bind ((visit_pairs linked gathered paired marked here (ahead other (List.mem_cons_self ..))
        pairs traces steps_le limit_le).and_right (visit_meets meets linked.right gathered)) ?_
      rintro result otherResult middle grown linked' ⟨paired', grows, collects⟩
      have settled : Marked core middle.right otherResult.visited floor none :=
        marked.collects gathered grows collects fun type awaits => by
          cases awaits
          exact List.mem_singleton_self _
      exact ih middle result otherResult otherRest floor linked' collects.gathered paired'
        (settled.await _) (rest_related.imp grown.ids)
        fun other listed => (ahead other (List.mem_cons_of_mem _ listed)).later grown.right

end

theorem collectWithin_pairs {limit limit' : Nat} (limit_le : limit ≤ limit') (steps : Nat) :
    ∀ steps', steps ≤ steps' →
      CollectPairs core (collectWithin limit steps) (collectWithin limit' steps') := by
  induction steps with
  | zero => exact fun _ _ _ _ _ _ _ _ _ _ _ _ _ _ => .out_of_steps limit
  | succ steps ih =>
      intro steps' steps_le
      obtain ⟨steps', rfl⟩ : ∃ fewer, steps' = fewer + 1 := ⟨steps' - 1, by omega⟩
      have steps_le : steps ≤ steps' := Nat.le_of_succ_le_succ steps_le
      exact foldVisits_pairs (ih steps' steps_le) (collectWithin_meets limit' steps')
        (fun visited => collectWithin_traces limit steps) steps_le limit_le

end Conform.Agreement
