import Conform.Proofs.Resolver.Projecting

/-! Chains of references and indexed accesses.  A chain that was followed to its end is
followed again without an addition, as its projections are known by then. -/

namespace Conform

/-- Only concrete nodes are added. -/
structure Arena.AddsConcrete (before after : Arena) : Prop where
  grown : before ≤ after
  added : ∀ id node, after.get? id = some node → before.get? id = some node ∨ node.IsConcrete

/-- What a reference with this target leads to. -/
def Arena.named (arena : Arena) (target : String) : Except SchemaError SchemaId :=
  match Address.ofTarget? target with
  | none => .error (.malformedTarget target)
  | some address =>
      match arena.symbol? address.path address.symbol with
      | some id => .ok id
      | none => .error (.missingTarget target)

namespace Resolver

open Run

variable {core bound : Nat} {state before middle after : ResolverState}
  {id target resolved : SchemaId} {shape : Shape}

/-- Looks up the projections on a chain and computes none. -/
def recallProjection : SchemaId → SchemaId → String → Run SchemaId :=
  project (resolveWithin 0 0) (flattenWithin 0 0 [])

theorem project_known {resolve : SchemaId → Run SchemaId} {flatten : SchemaId → Run Shape}
    {object projected : SchemaId} {index : String}
    (known : state.projections.find? id = some projected) :
    Lasts (project resolve flatten id object index) state projected := by
  intro later grown
  have found := ResolverState.projection_later known grown
  simp only [project, bind_ok (read_apply _), found, pure_apply]

theorem lookupTarget_eq (target : String) (state : ResolverState) :
    lookupTarget target state = (state.arena.named target, state) := by
  cases parsed : Address.ofTarget? target with
  | none =>
      simp only [lookupTarget, Arena.named, parsed]
      rfl
  | some address =>
      cases found : state.arena.symbol? address.path address.symbol <;>
        simp only [lookupTarget, Arena.named, parsed, bind_ok (read_apply _), found] <;> rfl

theorem lookupTarget_meets (target : String) (sound : state.Sound core) :
    Meets (lookupTarget target) state (state = ·) fun id _ =>
      Lasts (lookupTarget target) state id ∧ id.index < core := by
  unfold lookupTarget
  cases parsed : Address.ofTarget? target with
  | none => exact .fail rfl
  | some address =>
      refine .bind (.read _ rfl) ?_
      rintro _ _ - ⟨rfl, rfl⟩
      cases found : state.arena.symbol? address.path address.symbol with
      | none => exact .fail rfl
      | some id =>
          refine .pure rfl ⟨fun later grown => ?_, sound.symbols _ _ id found⟩
          have same := (Arena.symbol?_mono (ResolverState.arena_le grown) address.path
            address.symbol).trans found
          simp only [bind_ok (read_apply _), same, pure_apply]

theorem closeChain_concrete {node : Node} (found : state.arena.get? id = some node)
    (concrete : node.IsConcrete) : Lasts (closeChain id) state id := by
  refine .bind (.node found) ?_
  cases node <;> first | exact .pure | exact concrete.elim

theorem closeChain_meets (id : SchemaId) (state : ResolverState) :
    Meets (closeChain id) state (state = ·) fun resolved _ => resolved = id ∧
      ∃ node, state.arena.get? id = some node ∧ node.IsConcrete := by
  refine .bind (.node id rfl) ?_
  rintro node _ - ⟨found, rfl⟩
  cases node <;> first | exact .fail rfl | exact .pure rfl ⟨rfl, _, found, trivial⟩

theorem hop_concrete {project : SchemaId → SchemaId → String → Run SchemaId} {node : Node}
    (found : state.arena.get? id = some node) (concrete : node.IsConcrete) :
    Lasts (hop project id) state none := by
  refine .bind (.node found) ?_
  cases node <;> first | exact .pure | exact concrete.elim

theorem hop_reference {target : String} (found : state.arena.get? id = some (.reference target))
    (project : SchemaId → SchemaId → String → Run SchemaId) :
    hop project id state = ((state.arena.named target).map some, state) := by
  refine (bind_ok (node_apply found)).trans ?_
  have looked := lookupTarget_eq target state
  cases named : state.arena.named target with
  | ok next =>
      rw [named] at looked
      exact bind_ok looked
  | error error =>
      rw [named] at looked
      exact bind_error looked

/-- A concrete node is the end of a chain wherever it stands. -/
theorem follow_concrete {project : SchemaId → SchemaId → String → Run SchemaId} {node : Node}
    (found : state.arena.get? id = some node) (concrete : node.IsConcrete) (hops : Nat)
    (visited : List SchemaId) : Lasts (follow project hops visited id) state id := by
  cases hops with
  | zero => exact closeChain_concrete found concrete
  | succ hops =>
      unfold follow
      split
      · exact closeChain_concrete found concrete
      · exact .bind (hop_concrete found concrete) .pure

theorem hop_meets {project : SchemaId → SchemaId → String → Run SchemaId}
    (projects : ProjectMeets core project) (sound : state.Sound core)
    (early : id.Within core (bound + 1) ∨
      ∃ node, state.arena.get? id = some node ∧ node.IsUnion) :
    Meets (hop project id) state (Resolving core state) fun next after =>
      Lasts (hop recallProjection id) after next ∧ Bounded core bound state after ∧
        match next with
        | some next => next.Within core (bound + 1) ∨
            ∃ node, after.arena.get? next = some node ∧ node.IsUnion
        | none => ∃ node, after.arena.get? id = some node ∧ node.IsConcrete := by
  have stays := Resolving.refl sound
  refine .bind (.node id stays) ?_
  rintro node _ - ⟨found, rfl⟩
  have concrete (concrete : node.IsConcrete) :
      Meets (pure none : Run (Option SchemaId)) state (Resolving core state) fun next after =>
        Lasts (hop recallProjection id) after next ∧ Bounded core bound state after ∧
          match next with
          | some next => next.Within core (bound + 1) ∨
              ∃ node, after.arena.get? next = some node ∧ node.IsUnion
          | none => ∃ node, after.arena.get? id = some node ∧ node.IsConcrete :=
    .pure stays ⟨hop_concrete found concrete, .refl, node, found, concrete⟩
  cases node with
  | reference target =>
      refine .bind ((lookupTarget_meets target sound).imp (fun _ same => same ▸ stays)
        (fun _ _ same post => And.intro same post)) ?_
      rintro next _ - ⟨rfl, lasts, core⟩
      exact .pure stays ⟨.bind (.node found) (.bind lasts .pure), .refl, .inl (.inl core)⟩
  | indexedAccess object index =>
      refine .bind (projects id object index state sound found) ?_
      intro next after resolving post
      obtain ⟨known, bounded⟩ := post
      have access := ResolverState.get?_later found resolving.grown
      have lasts : Lasts (hop recallProjection id) after (some next) :=
        .bind (.node access) (.bind (project_known known) .pure)
      have start : id.Within core (bound + 1) := by
        rcases early with within | ⟨node, found', union⟩
        · exact within
        · cases found.symm.trans found'
          exact union.elim
      have widen : id.index ≤ bound ∨ id.index ≤ core := by
        rcases start with core | below
        · exact .inr (Nat.le_of_lt core)
        · exact .inl (Nat.le_of_lt_succ below)
      refine .pure resolving ⟨lasts, bounded.widen widen, ?_⟩
      rcases (resolving.sound.projections id next known).within with within | ⟨-, type, added⟩
      · refine .inl (Within.widen within ?_)
        rcases widen with below | core
        · exact .inl (by omega)
        · exact .inr core
      · exact .inr ⟨_, added, trivial⟩
  | _ => exact concrete trivial

theorem follow_met {project : SchemaId → SchemaId → String → Run SchemaId} {hops : Nat}
    {visited : List SchemaId} (met : visited.contains id = true) :
    follow project hops visited id = closeChain id := by
  cases hops with
  | zero => rfl
  | succ hops => rw [follow, if_pos met]

theorem follow_unmet {project : SchemaId → SchemaId → String → Run SchemaId} {hops : Nat}
    {visited : List SchemaId} (unmet : ¬ visited.contains id = true) :
    follow project (hops + 1) visited id = hop project id >>= fun next =>
      match next with
      | some next => follow project hops (id :: visited) next
      | none => pure id :=
  if_neg unmet

theorem Leads.of_concrete {node : Node} (found : state.arena.get? id = some node)
    (concrete : node.IsConcrete) (early : id.Within core bound ∨
      ∃ node, state.arena.get? id = some node ∧ node.IsUnion) : Leads core bound state id := by
  refine ⟨node, found, concrete, ?_⟩
  rcases early with within | ⟨node', found', union⟩
  · exact .inr within
  · cases found.symm.trans found'
    exact .inl union

theorem closeChain_leads (hops : Nat) (visited : List SchemaId) (sound : state.Sound core)
    (early : id.Within core (bound + 1) ∨
      ∃ node, state.arena.get? id = some node ∧ node.IsUnion) :
    Meets (closeChain id) state (Resolving core state) fun resolved after =>
      (∀ more, Lasts (follow recallProjection (hops + more) visited id) after resolved) ∧
        Leads core (bound + 1) after resolved ∧ Bounded core bound state after := by
  refine (closeChain_meets id state).imp (fun _ same => same ▸ Resolving.refl sound) ?_
  rintro _ _ rfl ⟨rfl, node, found, concrete⟩
  exact ⟨fun more => follow_concrete found concrete _ _, .of_concrete found concrete early, .refl⟩

theorem follow_meets {project : SchemaId → SchemaId → String → Run SchemaId}
    (projects : ProjectMeets core project) (hops : Nat) (visited : List SchemaId)
    (sound : state.Sound core)
    (early : id.Within core (bound + 1) ∨
      ∃ node, state.arena.get? id = some node ∧ node.IsUnion) :
    Meets (follow project hops visited id) state (Resolving core state) fun resolved after =>
      (∀ more, Lasts (follow recallProjection (hops + more) visited id) after resolved) ∧
        Leads core (bound + 1) after resolved ∧ Bounded core bound state after := by
  induction hops generalizing visited id state with
  | zero => exact closeChain_leads 0 visited sound early
  | succ hops ih =>
      by_cases met : visited.contains id = true
      · rw [follow_met met]
        exact closeChain_leads (hops + 1) visited sound early
      · rw [follow_unmet met]
        refine .bind (hop_meets projects sound early) ?_
        intro next middle resolving post
        obtain ⟨hopped, bounded, reached⟩ := post
        cases next with
        | none =>
            obtain ⟨node, found, concrete⟩ := reached
            refine .pure resolving ⟨fun more => follow_concrete found concrete _ _,
              .of_concrete found concrete ?_, bounded⟩
            exact early.imp_right fun ⟨node, found, union⟩ =>
              ⟨node, ResolverState.get?_later found resolving.grown, union⟩
        | some next =>
            refine (ih (id :: visited) resolving.sound reached).imp (fun _ => resolving.trans) ?_
            intro resolved after resolving' post
            obtain ⟨lasts, leads, bounded'⟩ := post
            refine ⟨fun more => ?_, leads, bounded.trans bounded'⟩
            rw [Nat.succ_add, follow_unmet met]
            exact .bind (hopped.later resolving'.grown) (lasts more)

section

variable {size hops : Nat} {visited : List SchemaId}

/-- The hops that are left are as many as nodes can still be met. -/
structure Enough (size hops : Nat) (visited : List SchemaId) (state : ResolverState) : Prop where
  issued : size ≤ state.arena.size
  distinct : visited.Nodup
  count : hops + visited.length = size
  inside : ∀ id ∈ visited, id.index < size
  early : ∀ id node, state.arena.get? id = some node → ¬ node.IsConcrete → id.index < size

theorem Enough.start (state : ResolverState) :
    Enough state.arena.size state.arena.size [] state :=
  ⟨Nat.le_refl _, .nil, rfl, fun _ listed => (List.not_mem_nil listed).elim,
    fun _ _ found _ => Arena.index_lt_size found⟩

theorem Resolving.addsConcrete (resolving : Resolving core state after) :
    state.arena.AddsConcrete after.arena := by
  refine ⟨ResolverState.arena_le resolving.grown, fun id node found => ?_⟩
  refine (resolving.added id node found).imp_right fun union => ?_
  cases node <;> first | exact trivial | exact union.elim

theorem Enough.later (enough : Enough size hops visited state)
    (adds : state.arena.AddsConcrete after.arena) : Enough size hops visited after := by
  refine ⟨Nat.le_trans enough.issued (Arena.size_mono adds.grown), enough.distinct, enough.count,
    enough.inside, fun id node found open_ => ?_⟩
  rcases adds.added id node found with earlier | concrete
  · exact enough.early id node earlier open_
  · exact (open_ concrete).elim

theorem Enough.cons {node : Node} (enough : Enough size (hops + 1) visited state)
    (found : state.arena.get? id = some node) (open_ : ¬ node.IsConcrete) (unmet : id ∉ visited) :
    Enough size hops (id :: visited) state := by
  refine ⟨enough.issued, List.nodup_cons.mpr ⟨unmet, enough.distinct⟩, ?_, fun other listed => ?_, enough.early⟩
  · have count := enough.count
    simp only [List.length_cons]
    omega
  · rcases List.mem_cons.mp listed with rfl | listed
    · exact enough.early _ node found open_
    · exact enough.inside other listed

/-- Without a hop left, every node that is not concrete has been met. -/
theorem Enough.met {node : Node} (enough : Enough size 0 visited state)
    (found : state.arena.get? id = some node) (open_ : ¬ node.IsConcrete) : id ∈ visited := by
  by_contra unmet
  have bound := SchemaId.length_le (List.nodup_cons.mpr ⟨unmet, enough.distinct⟩)
    (List.forall_mem_cons.mpr ⟨enough.early id node found open_, enough.inside⟩)
  have count := enough.count
  simp only [List.length_cons] at bound
  omega

/-- Counted anew, in a later state. -/
theorem Enough.renew (enough : Enough size hops visited state) (grown : state ≤ after) :
    Enough after.arena.size (after.arena.size - visited.length) visited after := by
  have larger := Nat.le_trans enough.issued (Arena.size_mono (ResolverState.arena_le grown))
  have count := enough.count
  refine ⟨Nat.le_refl _, enough.distinct, by omega, fun id listed => ?_,
    fun _ _ found _ => Arena.index_lt_size found⟩
  exact Nat.lt_of_lt_of_le (enough.inside id listed) larger

end

end Resolver

end Conform
