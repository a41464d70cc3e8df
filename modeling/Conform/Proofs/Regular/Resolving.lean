import Conform.Proofs.Regular.Basic
import Conform.Proofs.Resolver.Resolving
import Conform.Proofs.Run.Congruence
import Conform.Resolver.Basic

/-! Resolution in a regular arena succeeds.  Each recursion goes along a trail, so the steps
that it needs are those of the longest trail: a line of parents, or a way through references,
unions and intersections.  The arena stays as it is all the time. -/

namespace Conform

open Relation Resolver Run

namespace Arena

/-- What is mentioned or named is there. -/
structure Closed (arena : Arena) : Prop where
  children : ∀ id node, arena.get? id = some node → ∀ child ∈ node.children, child.index < arena.size
  symbols : ∀ path symbol id, arena.symbol? path symbol = some id → id.index < arena.size

variable {arena : Arena} {id next resolved : SchemaId} {node : Node} {α β : Type}

/-- All types of the shape are there. -/
def Covers (arena : Arena) (shape : Shape) : Prop :=
  ∀ type ∈ shape.types, type.index < arena.size

/-- A state that has nothing but the arena, except for what the shapes of the arena and the
fields that follow from them are. -/
structure Undisturbed (arena : Arena) (state : ResolverState) : Prop where
  same : state.arena = arena
  shapes : ∀ id shape, state.shapes.find? id = some shape → arena.Covers shape
  distributions : ∀ id, state.distributions.find? id = none

theorem Undisturbed.ofArena (arena : Arena) : Undisturbed arena (.ofArena arena) :=
  ⟨rfl, nofun, fun _ => rfl⟩

theorem Undisturbed.get? {state : ResolverState} (undisturbed : Undisturbed arena state)
    (found : arena.get? id = some node) : state.arena.get? id = some node :=
  undisturbed.same.symm ▸ found

theorem Undisturbed.keepShape {state : ResolverState} {shape : Shape} (undisturbed : Undisturbed arena state)
    (id : SchemaId) (issued : arena.Covers shape) :
    Undisturbed arena { state with shapes := (state.shapes.settle id shape).2 } where
  same := undisturbed.same
  shapes := fun other found known => by
    rcases Memo.find?_settle_cases known with earlier | ⟨-, rfl, -⟩
    · exact undisturbed.shapes other found earlier
    · exact issued
  distributions := undisturbed.distributions

/-- The run succeeds without a change of the arena. -/
def Manages (arena : Arena) (run : Run α) (post : α → Prop) : Prop :=
  Succeeds (Undisturbed arena) run post

theorem manages_node {post : β → Prop} {rest : Node → Run β} (found : arena.get? id = some node)
    (manages : arena.Manages (rest node) post) : arena.Manages (Run.node id >>= rest) post := by
  intro state undisturbed
  rw [bind_ok (node_apply (undisturbed.get? found))]
  exact manages state undisturbed

theorem Closed.refers (closed : arena.Closed) (refers : arena.Refers id next) : next.index < arena.size := by
  unfold Refers referent? at refers
  split at refers
  · obtain ⟨address, -, found⟩ := Option.bind_eq_some_iff.mp refers
    exact closed.symbols _ _ _ found
  · cases refers

theorem Closed.denotes (closed : arena.Closed) (present : id.index < arena.size)
    (leads : ReflTransGen arena.Refers id next) : next.index < arena.size := by
  rcases leads.cases_tail with rfl | ⟨_, -, refers⟩
  · exact present
  · exact closed.refers refers

theorem sameValue_members {members : List SchemaId}
    (found : arena.get? id = some (.union members) ∨ arena.get? id = some (.intersection members)) :
    arena.sameValue id = members := by
  rcases found with found | found <;> rw [sameValue, found]

theorem Closed.members (closed : arena.Closed) {members : List SchemaId}
    (found : arena.get? id = some (.union members) ∨ arena.get? id = some (.intersection members)) :
    ∀ member ∈ members, member.index < arena.size := by
  rcases found with found | found
  · exact closed.children id _ found
  · exact closed.children id _ found

theorem Trail.refers {visited : List SchemaId} (trail : Trail arena.SameValue arena.size visited id)
    (leads : ReflTransGen arena.Refers id resolved) :
    Trail arena.SameValue arena.size visited resolved :=
  trail.along (ReflTransGen.mono arena.refers_le_sameValue _ _ leads)

theorem Regular.trail_member (regular : arena.Regular) {visited members : List SchemaId} {member : SchemaId}
    (trail : Trail arena.SameValue arena.size visited id)
    (found : arena.get? id = some (.union members) ∨ arena.get? id = some (.intersection members))
    (listed : member ∈ members) : Trail arena.SameValue arena.size (id :: visited) member := by
  have present : id.index < arena.size := found.elim index_lt_size index_lt_size
  exact trail.push regular.apart present (by rwa [SameValue, sameValue_members found])

theorem hop_refers {project : SchemaId → SchemaId → String → Run SchemaId} {target : String}
    (found : arena.get? id = some (.reference target)) (refers : arena.Refers id next) :
    arena.Manages (hop project id) (· = some next) := by
  refine manages_node found fun state undisturbed => ?_
  simp only [Refers, referent?, found] at refers
  obtain ⟨address, parsed, named⟩ := Option.bind_eq_some_iff.mp refers
  rw [← undisturbed.same] at named
  have looked : lookupTarget target state = (.ok next, state) := by
    simp only [lookupTarget_eq, Arena.named, parsed, named]
  exact ⟨some next, state, bind_ok looked, undisturbed, rfl⟩

section

variable (regular : arena.Regular) (closed : arena.Closed)

include regular

theorem Regular.refers_acyclic (id : SchemaId) : ¬ TransGen arena.Refers id id :=
  fun circle => regular.apart id (TransGen.mono arena.refers_le_sameValue _ _ circle)

omit regular in
theorem follow_concrete_manages {project : SchemaId → SchemaId → String → Run SchemaId} {hops : Nat}
    {visited : List SchemaId} {node : Node} (unmet : ¬ visited.contains id = true)
    (found : arena.get? id = some node) (concrete : node.IsConcrete) :
    arena.Manages (follow project (hops + 1) visited id) (arena.Denotes id) := by
  refine fun state undisturbed => ⟨id, state, ?_, undisturbed, .refl, node, found, concrete⟩
  rw [follow_unmet unmet, bind_ok (hop_concrete (undisturbed.get? found) concrete).now]
  rfl

include closed

theorem follow_manages {project : SchemaId → SchemaId → String → Run SchemaId} {hops : Nat}
    {visited : List SchemaId} (present : id.index < arena.size)
    (trail : Trail arena.Refers arena.size visited id) (enough : arena.size ≤ visited.length + hops) :
    arena.Manages (follow project hops visited id) (arena.Denotes id) := by
  have acyclic := regular.refers_acyclic
  have short := trail.short acyclic present
  induction hops generalizing visited id with
  | zero => omega
  | succ hops ih =>
      have unmet : ¬ visited.contains id = true := by simpa using trail.fresh acyclic
      obtain ⟨node, found⟩ := arena.exists_get? id present
      cases node with
      | reference target =>
          rw [follow_unmet unmet]
          obtain ⟨next, refers⟩ := regular.refers id target found
          refine (hop_refers found refers).bind ?_
          rintro _ rfl
          have onward := trail.push acyclic present refers
          have present' := closed.refers refers
          refine (ih present' onward ?_ (onward.short acyclic present')).imp ?_
          · rw [List.length_cons]
            omega
          · exact fun resolved denotes => ⟨.head refers denotes.1, denotes.2⟩
      | indexedAccess object index => cases regular.plain id _ found
      | _ => exact follow_concrete_manages unmet found trivial

theorem resolveWithin_manages (limit : Nat) {steps : Nat} (left : 0 < steps) (present : id.index < arena.size) :
    arena.Manages (resolveWithin limit steps id) (arena.Denotes id) := by
  intro state undisturbed
  obtain ⟨fewer, rfl⟩ := Nat.exists_eq_add_one.mpr left
  rw [resolveWithin_succ]
  refine follow_manages regular closed present .nil ?_ state undisturbed
  rw [undisturbed.same, List.length_nil, Nat.zero_add]

omit regular closed in
theorem unlessKnown_manages {chain : List SchemaId} {compute : Run Shape} (fresh : id ∉ chain)
    (computes : arena.Manages compute arena.Covers) :
    arena.Manages (unlessKnown chain id compute) arena.Covers := by
  intro state undisturbed
  rw [unlessKnown, bind_ok (read_apply _)]
  cases known : state.shapes.find? id with
  | some shape => exact ⟨shape, state, rfl, undisturbed, undisturbed.shapes id shape known⟩
  | none =>
      dsimp only
      rw [if_neg (by simpa using fresh)]
      exact computes state undisturbed

omit regular closed in
theorem inheritParents_manages {resolve : SchemaId → Run SchemaId} {flatten : SchemaId → Run Shape}
    {shape : Shape} (issued : arena.Covers shape) {parents : List SchemaId}
    (each : ∀ parent ∈ parents, arena.Manages (resolve parent) fun resolved =>
      arena.isInterface resolved = true ∧ arena.Manages (flatten resolved) arena.Covers) :
    arena.Manages (inheritParents resolve flatten shape parents) arena.Covers := by
  induction parents generalizing shape with
  | nil => exact .pure issued
  | cons parent rest ih =>
      refine (each parent (List.mem_cons_self ..)).bind fun resolved post => ?_
      obtain ⟨interface, flattens⟩ := post
      obtain ⟨properties, index, parents, found⟩ := isInterface_iff.mp interface
      refine manages_node found (flattens.bind fun inherited issued' => ?_)
      refine ih (fun type listed => ?_) fun other listed => each other (List.mem_cons_of_mem _ listed)
      rcases Shape.types_inherit listed with own | taken
      · exact issued type own
      · exact issued' type taken

/-- Along a line of parents every step leaves one interface behind. -/
theorem flattenWithin_manages (limit steps : Nat) {chain : List SchemaId}
    (interface : arena.isInterface id = true) (trail : Trail arena.Inherits arena.size chain id)
    (enough : arena.size < chain.length + steps) :
    arena.Manages (flattenWithin limit steps chain id) arena.Covers := by
  induction steps generalizing chain id with
  | zero =>
      obtain ⟨properties, index, parents, found⟩ := isInterface_iff.mp interface
      have short := trail.short regular.lineage (index_lt_size found)
      omega
  | succ steps ih =>
      obtain ⟨properties, index, parents, found⟩ := isInterface_iff.mp interface
      have present := index_lt_size found
      have short := trail.short regular.lineage present
      have children := closed.children id _ found
      refine unlessKnown_manages (trail.fresh regular.lineage) ?_
      have shapes : arena.Manages (flattenNode (resolveWithin limit steps)
          (flattenWithin limit steps (id :: chain)) id) arena.Covers := by
        refine manages_node found (inheritParents_manages (fun type listed => ?_) fun parent listed => ?_)
        · refine children type (List.mem_append_left _ ?_)
          rcases Shape.types_own listed with ⟨property, inside, rfl⟩ | ⟨signature, rfl, rfl⟩
          · exact List.mem_append_left _ (List.mem_map_of_mem inside)
          · exact List.mem_append_right _ (by simp)
        · have mentioned : parent.index < arena.size := children parent (List.mem_append_right _ listed)
          have listed : parent ∈ arena.parents id := by rwa [Arena.parents, found]
          have left : 0 < steps := by omega
          refine (resolveWithin_manages regular closed limit left mentioned).imp fun resolved denotes => ?_
          have interface := regular.denotes_interface listed denotes
          refine ⟨interface, ih interface (trail.push regular.lineage present ⟨parent, listed, denotes⟩) ?_⟩
          rw [List.length_cons]
          omega
      refine shapes.bind fun shape issued state undisturbed => ?_
      have kept := undisturbed.keepShape id issued
      exact ⟨_, _, keepShape_apply, kept, kept.shapes id _ (Memo.find?_settle _ _ _)⟩

omit regular closed in
/-- Nothing is distributed where there is no combinator. -/
theorem distributeWithin_manages (limit : Nat) {steps : Nat} (left : 0 < steps)
    (interface : arena.isInterface id = true) :
    arena.Manages (distributeWithin limit steps id) (· = none) := by
  obtain ⟨properties, index, parents, found⟩ := isInterface_iff.mp interface
  obtain ⟨fewer, rfl⟩ := Nat.exists_eq_add_one.mpr left
  intro state undisturbed
  refine ⟨none, state, ?_, undisturbed, rfl⟩
  rw [distributeWithin, bind_ok (read_apply _), undisturbed.distributions id]
  exact bind_ok (node_apply (undisturbed.get? found))

/-- Besides a step for every node of the trail there are enough for a shape. -/
theorem collectWithin_manages (limit steps : Nat) {visited : List SchemaId} (collected : Collected)
    {ids : List SchemaId} (present : ∀ id ∈ ids, id.index < arena.size)
    (trails : ∀ id ∈ ids, Trail arena.SameValue arena.size visited id)
    (short : visited.length ≤ arena.size) (enough : 2 * arena.size + 2 ≤ visited.length + steps) :
    arena.Manages (collectWithin limit steps collected ids) fun _ => True := by
  induction steps generalizing visited collected ids with
  | zero => omega
  | succ steps ih =>
      have left : 0 < steps := by omega
      refine Succeeds.foldlM (fun collected id listed => ?_) collected
      refine (resolveWithin_manages regular closed limit left (present id listed)).bind ?_
      intro resolved denotes
      obtain ⟨leads, node, found, concrete⟩ := denotes
      have trail := (trails id listed).refers leads
      have inside (members : List SchemaId) (found : arena.get? resolved = some (.union members) ∨
          arena.get? resolved = some (.intersection members)) (marked : Collected) :
          arena.Manages (collectWithin limit steps marked members) fun _ => True := by
        have there : resolved.index < arena.size := found.elim index_lt_size index_lt_size
        refine ih marked (closed.members found) (fun member => regular.trail_member trail found)
          (trail.short regular.apart there) ?_
        rw [List.length_cons]
        omega
      split
      · exact .pure trivial
      · refine manages_node found ?_
        cases node with
        | union members => exact inside members (.inl found) _
        | intersection members => exact inside members (.inr found) _
        | interface properties index parents =>
            have interface := isInterface_iff.mpr ⟨properties, index, parents, found⟩
            refine (distributeWithin_manages limit left interface).bind ?_
            rintro _ rfl
            refine (flattenWithin_manages regular closed limit steps interface .nil ?_).bind fun shape _ =>
              .pure trivial
            rw [List.length_nil]
            omega
        | mapped combinator target => cases regular.plain resolved _ found
        | _ => exact .pure trivial

theorem foreignFields_manages (limit : Nat) (present : id.index < arena.size)
    (enough : 2 * arena.size + 2 ≤ limit) :
    arena.Manages (foreignFields limit id) fun _ => True := by
  intro state undisturbed
  rw [foreignFields, bind_ok (read_apply _)]
  cases state.foreign.find? id with
  | some fields => exact ⟨fields, state, rfl, undisturbed, trivial⟩
  | none =>
      have collects := collectWithin_manages regular closed limit limit .empty
        (List.forall_mem_singleton.mpr present) (List.forall_mem_singleton.mpr .nil)
        (Nat.zero_le _) (by simpa using enough)
      refine collects.bind (fun collected _ state undisturbed => ?_) state undisturbed
      exact ⟨_, _, keepForeign_apply, ⟨undisturbed.same, undisturbed.shapes, undisturbed.distributions⟩, trivial⟩

end

end Arena

end Conform
