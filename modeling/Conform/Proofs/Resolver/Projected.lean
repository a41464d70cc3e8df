import Conform.Proofs.Resolver.Distributing

/-! Unions that a resolution leads to.  Where the union is new, an indexed access
stands for it, and its members were there before. -/

namespace Conform.Resolver

open Run

variable {core : Nat} {state before after : ResolverState} {id target resolved access projected : SchemaId}
  {node : Node} {members : List SchemaId}

/-- A chain goes on with a symbol, or with what an indexed access stands for. -/
theorem hop_source {next : Option SchemaId} (sound : state.Sound core)
    (ran : hop recallProjection id state = (.ok next, after)) : after = state ∧
      ∀ onward ∈ next, onward.index < core ∨ ∃ access, state.projections.find? access = some onward := by
  obtain ⟨node, middle, reads, rest⟩ := of_bind_ok ran
  obtain ⟨-, rfl⟩ := of_node_ok reads
  cases node with
  | reference name =>
      obtain ⟨onward, middle, looked, done⟩ := of_bind_ok rest
      have meets := lookupTarget_meets name sound
      cases meets.always_ok looked
      cases done
      refine ⟨rfl, fun other same => .inl ?_⟩
      cases same
      exact (meets.answers _ _ looked).2
  | indexedAccess object index =>
      obtain ⟨onward, middle, recalls, done⟩ := of_bind_ok rest
      obtain ⟨known, rfl⟩ := recallProjection_known recalls
      cases done
      refine ⟨rfl, fun other same => .inr ?_⟩
      cases same
      exact ⟨id, known⟩
  | _ =>
      cases rest
      exact ⟨rfl, nofun⟩

/-- A chain ends where it starts, at a symbol, or at what an indexed access stands
for. -/
theorem follow_source {hops : Nat} {visited : List SchemaId} (sound : state.Sound core)
    (ran : follow recallProjection hops visited id state = (.ok resolved, after)) :
    resolved = id ∨ resolved.index < core ∨ ∃ access, state.projections.find? access = some resolved := by
  induction hops generalizing visited id with
  | zero => exact .inl ((closeChain_meets id state).answers resolved after ran).1
  | succ hops ih =>
      by_cases met : visited.contains id = true
      · rw [follow_met met] at ran
        exact .inl ((closeChain_meets id state).answers resolved after ran).1
      rw [follow_unmet met] at ran
      obtain ⟨next, middle, hopped, rest⟩ := of_bind_ok ran
      obtain ⟨rfl, sources⟩ := hop_source sound hopped
      cases next with
      | none =>
          cases rest
          exact .inl rfl
      | some next =>
          rcases ih rest with rfl | further
          · exact .inr (sources _ rfl)
          · exact .inr further

theorem Resolves.source (resolves : Resolves state target resolved) (sound : state.Sound core) :
    resolved = target ∨ resolved.index < core ∨ ∃ access, state.projections.find? access = some resolved :=
  follow_source sound resolves.now

section

variable (sound : state.Sound core) (resolving : Resolving core state after)

include sound resolving

theorem members_issued_of_present (present : id.index < state.arena.size)
    (found : after.arena.get? id = some (.union members)) :
    ∀ member ∈ members, member.index < state.arena.size := by
  obtain ⟨node, here⟩ := state.arena.exists_get? id present
  cases (ResolverState.get?_later here resolving.grown).symm.trans found
  exact children_issued sound here

/-- A shape is one of a node that was there before. -/
theorem types_issued {shape : Shape} (there : after.arena.get? target = some node)
    (like : node.isInterfaceLike = true) (known : after.shapes.find? target = some shape) :
    ∀ type ∈ shape.types, type.index < state.arena.size := by
  have present : target.index < state.arena.size := by
    rcases resolving.added target node there with earlier | union
    · exact Arena.index_lt_size earlier
    · cases node <;> first | exact union.elim | cases like
  exact fun type listed => Within.index_lt (shape_within resolving.sound known type listed) sound.core_le
    (Nat.le_of_lt present)

theorem projected_members (known : after.projections.find? access = some projected)
    (found : after.arena.get? projected = some (.union members)) :
    ∀ member ∈ members, member.index < state.arena.size := by
  obtain ⟨object, index, target, shape, -, ⟨-, node, there, like⟩, shape_known, projects⟩ :=
    (resolving.sound.projections access projected known).computed
  have issued := types_issued sound resolving there like shape_known
  cases projects with
  | required declared | included declared =>
      exact members_issued_of_present sound resolving (issued _ (Shape.type_mem_of_property? declared)) found
  | signature _ signed =>
      exact members_issued_of_present sound resolving (issued _ (Shape.type_mem_of_index signed)) found
  | added declared _ _ _ union =>
      cases found.symm.trans union
      intro member listed
      rcases List.mem_cons.mp listed with rfl | listed
      · exact issued _ (Shape.type_mem_of_property? declared)
      · cases List.mem_singleton.mp listed
        exact Arena.index_lt_size sound.undefined

/-- The members of a union that a resolution leads to were there before it. -/
theorem resolved_members (resolves : Resolves after target resolved)
    (present : target.index < state.arena.size)
    (found : after.arena.get? resolved = some (.union members)) :
    ∀ member ∈ members, member.index < state.arena.size := by
  rcases resolves.source resolving.sound with rfl | early | ⟨access, known⟩
  · exact members_issued_of_present sound resolving present found
  · exact members_issued_of_present sound resolving (Nat.lt_of_lt_of_le early sound.core_le) found
  · exact projected_members sound resolving known found

end

section

variable {project : SchemaId → SchemaId → String → Run SchemaId}

/-- A chain that closes at a node ends there. -/
theorem follow_closes (closed : closeChain id state = (.ok resolved, after)) (hops : Nat)
    (visited : List SchemaId) : follow project hops visited id state = (.ok resolved, after) := by
  have meets := closeChain_meets id state
  obtain ⟨rfl, node, found, concrete⟩ := meets.answers _ _ closed
  cases meets.always_ok closed
  exact (follow_concrete found concrete hops visited).now

/-- With fewer nodes met and more hops left a chain ends at the same node. -/
theorem follow_eases {hops more : Nat} {visited others : List SchemaId}
    (ran : follow project hops visited id state = (.ok resolved, after)) (enough : hops ≤ more)
    (subset : others ⊆ visited) : follow project more others id state = (.ok resolved, after) := by
  induction hops generalizing more visited others id state with
  | zero => exact follow_closes ran more others
  | succ hops ih =>
      by_cases met : visited.contains id = true
      · rw [follow_met met] at ran
        exact follow_closes ran more others
      · obtain ⟨fewer, rfl⟩ := Nat.exists_eq_add_of_le' (Nat.le_trans (Nat.le_add_left 1 hops) enough)
        have unmet : ¬ others.contains id = true := by
          simp only [List.contains_iff_mem] at met ⊢
          exact fun listed => met (subset listed)
        rw [follow_unmet met] at ran
        rw [follow_unmet unmet]
        obtain ⟨next, middle, hopped, rest⟩ := of_bind_ok ran
        rw [bind_ok hopped]
        cases next with
        | none => exact rest
        | some next => exact ih rest (Nat.le_of_succ_le_succ enough) (List.cons_subset_cons id subset)

end

/-- What an indexed access stands for resolves to what the access resolves to. -/
theorem Resolves.behind_access {object : SchemaId} {index : String}
    (resolves : Resolves state id resolved) (sound : state.Sound core)
    (access : state.arena.get? id = some (.indexedAccess object index)) :
    ∃ projected, state.projections.find? id = some projected ∧ Resolves state projected resolved := by
  have ran : follow recallProjection state.arena.size [] id state = (.ok resolved, state) := resolves.now
  obtain ⟨hops, size⟩ : ∃ hops, state.arena.size = hops + 1 :=
    Nat.exists_eq_add_of_le' (Nat.lt_of_le_of_lt (Nat.zero_le _) (Arena.index_lt_size access))
  rw [size, follow_unmet (by simp)] at ran
  obtain ⟨next, middle, hopped, rest⟩ := of_bind_ok ran
  rw [hop, bind_ok (node_apply access)] at hopped
  obtain ⟨projected, later, recalls, done⟩ := of_bind_ok hopped
  obtain ⟨known, rfl⟩ := recallProjection_known recalls
  cases done
  have eased := follow_eases rest (Nat.le_add_right hops 1) (List.nil_subset _)
  rw [← size] at eased
  exact ⟨projected, known, ((resolveWithin_meets 0 1 projected _ sound).answers _ _ eased).1⟩

theorem exists_undefined_member (included : anyUndefined members state = (.ok true, after)) :
    ∃ member ∈ members, state.arena.get? member = some (.literal .undefined) := by
  induction members with
  | nil => cases included
  | cons member rest ih =>
      obtain ⟨node, middle, reads, onward⟩ := of_bind_ok included
      obtain ⟨found, rfl⟩ := of_node_ok reads
      split at onward
      · exact ⟨member, List.mem_cons_self .., found⟩
      · obtain ⟨other, listed, there⟩ := ih onward
        exact ⟨other, List.mem_cons_of_mem _ listed, there⟩

/-- A type that includes `undefined` is a union with a literal `undefined` among its members. -/
theorem exists_undefined (included : includesUndefined id state = (.ok true, after)) :
    ∃ members, state.arena.get? id = some (.union members) ∧
      ∃ member ∈ members, state.arena.get? member = some (.literal .undefined) := by
  obtain ⟨node, middle, reads, onward⟩ := of_bind_ok included
  obtain ⟨found, rfl⟩ := of_node_ok reads
  cases node with
  | union members => exact ⟨members, found, exists_undefined_member onward⟩
  | _ => cases onward

end Conform.Resolver
