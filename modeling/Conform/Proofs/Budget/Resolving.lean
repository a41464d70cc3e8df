import Mathlib.Data.List.Perm.Subperm
import Conform.Proofs.Budget.Basic
import Conform.Proofs.Resolver.Congruence

/-! Resolution never runs out of its budget.  A nested call has one step less than the call
around it, and a loop along references meets each of them once, since resolution adds unions
and combinators only.  Nothing is asked of the nodes or of what is remembered. -/

namespace Conform

open Resolver Run

/-- The list holds every reference and every indexed access of the arena, and no more
identities than there are nodes. -/
structure Arena.Charted (links : List SchemaId) (arena : Arena) : Prop where
  listed : ∀ id node, arena.get? id = some node → ¬ node.IsConcrete → id ∈ links
  few : links.length ≤ arena.size

theorem Arena.Charted.alloc {links : List SchemaId} {arena : Arena} (charted : arena.Charted links)
    {node : Node} (concrete : node.IsConcrete) : (arena.alloc node).2.Charted links where
  listed := fun id other found link => by
    rcases Arena.get?_alloc_cases found with earlier | ⟨-, rfl⟩
    · exact charted.listed id other earlier link
    · exact (link concrete).elim
  few := by
    have grown := charted.few
    rw [Arena.size_alloc]
    omega

namespace Budget

variable {budget : Budget} {links : List SchemaId} {limit : Nat} {id target : SchemaId} {α : Type}
  {run other : Run α}

/-- The runs do the same wherever the links are the listed ones. -/
def Suffices (links : List SchemaId) (run other : Run α) : Prop :=
  Coincide (·.arena.Charted links) run other

theorem alloc_suffices {node : Node} (concrete : node.IsConcrete) :
    Suffices links (Run.alloc node) (Run.alloc node) :=
  .of_kept fun _ charted => charted.alloc concrete

/-- What a run remembers does not count. -/
theorem suffices_of_same_arena (same : ∀ state, (run state).2.arena = state.arena) : Suffices links run run :=
  .of_kept fun state charted => (same state).symm ▸ charted

theorem suffices_steps : (coincidence (·.arena.Charted links)).Steps where
  fail _ := .fail _
  read _ := .read _
  node id := .node id
  alloc := alloc_suffices
  keepShape _ _ := suffices_of_same_arena fun _ => rfl
  keepProjection _ _ := suffices_of_same_arena fun _ => rfl
  keepDistribution _ _ := suffices_of_same_arena fun _ => rfl

/-- Only a link leads on. -/
theorem hop_listed {project : SchemaId → SchemaId → String → Run SchemaId} {state after : ResolverState}
    {next : Option SchemaId} (charted : state.arena.Charted links)
    (ran : hop project id state = (.ok next, after)) : next = none ∨ id ∈ links := by
  obtain ⟨node, middle, found, continued⟩ := of_bind_ok ran
  obtain ⟨present, rfl⟩ := of_node_ok found
  cases node with
  | reference _ | indexedAccess _ _ => exact .inr (charted.listed id _ present fun link => link)
  | _ =>
      cases continued
      exact .inl rfl

/-- When the chain stands on every link already, the loop without a budget closes it, as the
other one does a turn later. -/
theorem follow_exhausted {project project' : SchemaId → SchemaId → String → Run SchemaId}
    {visited : List SchemaId} (turns : Nat) (unlisted : id ∉ links) :
    Suffices links (budget.follow project (turns + 1) visited id) (Resolver.follow project' 0 visited id) := by
  by_cases met : visited.contains id = true
  · rw [follow, if_pos met]
    exact closeChain_related suffices_steps id
  · intro state charted
    rw [follow, if_neg met, Resolver.follow]
    cases found : state.arena.get? id with
    | none =>
        have missed := node_missing found
        simp only [hop, closeChain, bind_error missed, bind_error (bind_error missed)]
        exact ⟨trivial, charted⟩
    | some node =>
        have concrete : node.IsConcrete := Classical.byContradiction fun link =>
          unlisted (charted.listed id node found link)
        rw [(closeChain_concrete found concrete).now, bind_ok (hop_concrete found concrete).now]
        exact ⟨rfl, charted⟩

/-- Both loops have visited different links only.  The one with the budget has more turns left
than there are links left, the other one at least as many hops. -/
theorem follow_suffices {project project' : SchemaId → SchemaId → String → Run SchemaId}
    (projects : ∀ id object index, Suffices links (project id object index) (project' id object index))
    {turns hops : Nat} {visited : List SchemaId} (apart : visited.Nodup) (known : visited ⊆ links)
    (enough : links.length < visited.length + turns) (enough' : links.length ≤ visited.length + hops) :
    Suffices links (budget.follow project turns visited id) (Resolver.follow project' hops visited id) := by
  induction turns generalizing hops visited id with
  | zero =>
      have bound := (apart.subperm known).length_le
      omega
  | succ turns ih =>
      by_cases met : visited.contains id = true
      · rw [follow, if_pos met, follow_met met]
        exact closeChain_related suffices_steps id
      have fresh : (id :: visited).Nodup := List.nodup_cons.mpr ⟨fun listed => met (by simpa using listed), apart⟩
      cases hops with
      | zero =>
          -- a link that is met now would be one more than there are
          refine follow_exhausted turns fun listed => ?_
          have bound := (fresh.subperm (List.cons_subset.mpr ⟨listed, known⟩)).length_le
          simp only [List.length_cons] at bound
          omega
      | succ hops =>
          rw [follow, if_neg met, follow_unmet met]
          refine .bind_of (hop_related suffices_steps projects id) (fun _ _ _ charted => hop_listed charted) ?_
          intro next leads
          cases next with
          | none => exact .pure id
          | some next =>
              have listed : id ∈ links := leads.resolve_left nofun
              refine ih fresh (List.cons_subset.mpr ⟨listed, known⟩) ?_ ?_
              · simp only [List.length_cons]
                omega
              · simp only [List.length_cons]
                omega

theorem within_suffices (limit : Nat) (enough : links.length < budget.turns) (steps : Nat) {calls : Nat}
    (deep : steps < calls) :
    (∀ id, Suffices links (budget.resolveIn limit calls steps id) (resolveWithin limit steps id)) ∧
      ∀ chain id, Suffices links (budget.flattenIn limit calls steps chain id)
        (flattenWithin limit steps chain id) := by
  induction steps generalizing calls with
  | zero =>
      obtain ⟨calls, rfl⟩ := Nat.exists_eq_add_one.mpr deep
      exact ⟨fun _ => .fail _, fun chain id => unlessKnown_related suffices_steps chain id (.fail _)⟩
  | succ steps ih =>
      obtain ⟨calls, rfl⟩ := Nat.exists_eq_add_one.mpr (Nat.zero_lt_of_lt deep)
      obtain ⟨resolves, flattens⟩ := ih (Nat.lt_of_succ_lt_succ deep)
      refine ⟨fun id state charted => ?_, fun chain id => unlessKnown_related suffices_steps chain id ?_⟩
      · rw [resolveWithin_succ]
        refine follow_suffices (project_related suffices_steps resolves (flattens [])) List.nodup_nil
          (List.nil_subset _) ?_ ?_ state charted
        · simpa using enough
        · simpa using charted.few
      · exact .bind (flattenNode_related suffices_steps resolves (flattens _) id) fun shape =>
          suffices_steps.keepShape id shape

end Budget

end Conform
