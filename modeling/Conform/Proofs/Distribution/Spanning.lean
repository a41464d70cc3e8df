import Conform.Proofs.Distribution.Stacked
import Conform.Proofs.Resolver.Projected

/-! The chain of combinators that leads from a node down to a union, with every target
resolved, and what is distributed for such a chain. -/

namespace Conform.Resolver

open Run Agreement

variable {core : Nat} {left right state after : ResolverState} {id target resolved other : SchemaId}
  {chain : CombinatorChain}

/-- A step on a settled way down. -/
theorem Walks.step {budget : Nat} {found : Option (CombinatorChain × List SchemaId)}
    (sound : state.Sound core) (walks : Walks state budget chain target found) :
    ∃ fewer resolved node, budget = fewer + 1 ∧ Resolves state target resolved ∧
      state.arena.get? resolved = some node ∧ match node with
        | .union members => found = some (chain, members)
        | .mapped combinator inner => Walks state fewer (chain.push combinator) inner found
        | .interface _ _ _ => found = none
        | _ => False := by
  cases budget with
  | zero => cases walks.now
  | succ fewer =>
      rw [Walks, walkChain] at walks
      have split := Yields.split (resolveWithin_stable 0 1 target) ?stable sound walks.now
      case stable =>
        intro resolved
        refine .bind (.node resolved) fun node => ?_
        cases node with
        | mapped combinator inner => exact walkChain_stable 0 1 fewer _ _
        | union _ | interface _ _ _ => exact .pure _
        | _ => exact .fail _
      obtain ⟨resolved, resolves, -⟩ := split
      have resolves := resolves.resolves sound
      have here := walks.onward resolves
      obtain ⟨node, _, reads, -⟩ := of_bind_ok here.now
      obtain ⟨there, -⟩ := of_node_ok reads
      have onward := here.onward (.node there)
      refine ⟨fewer, resolved, node, rfl, resolves, there, ?_⟩
      cases node with
      | mapped combinator inner => exact onward
      | union _ | interface _ _ _ =>
          cases onward.now
          rfl
      | _ => cases onward.now

/-- A combinator further out makes no difference to what a chain leads to. -/
theorem Walks.inner {budget : Nat} {outer : List Combinator}
    {found : Option (CombinatorChain × List SchemaId)} (sound : state.Sound core)
    (walks : Walks state budget chain target found) (inner : CombinatorChain)
    (under : chain.toList = inner.toList ++ outer) :
    ∃ reached, Walks state budget inner target reached ∧
      Option.Rel (fun first second => first.1.toList = second.1.toList ++ outer ∧ first.2 = second.2)
        found reached := by
  induction budget generalizing chain inner target with
  | zero => cases walks.now
  | succ budget ih =>
      obtain ⟨_, resolved, node, same, resolves, there, onward⟩ := walks.step sound
      cases same
      cases node with
      | union members =>
          cases onward
          exact ⟨_, resolves.bind ((Lasts.node there).bind .pure), .some ⟨under, rfl⟩⟩
      | interface _ _ _ =>
          cases onward
          exact ⟨_, resolves.bind ((Lasts.node there).bind .pure), .none⟩
      | mapped combinator behind =>
          have pushed : (chain.push combinator).toList = (inner.push combinator).toList ++ outer :=
            congrArg (combinator :: ·) under
          obtain ⟨reached, rest, same⟩ := ih onward _ pushed
          exact ⟨reached, resolves.bind ((Lasts.node there).bind rest), same⟩
      | _ => exact onward.elim

theorem resolve_settles {limit : Nat} (sound : state.Sound core)
    (ran : resolve limit target state = (.ok resolved, after)) :
    Resolving core state after ∧ Resolves after target resolved := by
  have meets := resolveWithin_meets limit limit target state sound
  exact ⟨meets.always_ok ran, (meets.answers _ _ ran).1⟩

/-- What is resolved in one of two states, and what is settled in the other. -/
theorem resolve_related {limit : Nat} (sound : left.Sound core) (sound' : right.Sound core)
    (grown : left ≤ right) (present : target.index < left.arena.size)
    (ran : resolve limit target left = (.ok resolved, after)) (resolves : Resolves right target other) :
    ∃ next : World, (World.same left right).Extends next ∧ next.Linked core ∧ next.left = after ∧
      next.right = right ∧ next.ids resolved other := by
  have agrees := resolveWithin_agrees limit limit 0 1 (.same left right) target target
    (.same sound sound' grown) ⟨rfl, present⟩
  obtain ⟨next, left_eq, right_eq, grown', linked, pair⟩ := agrees.of_both ran resolves.now
  exact ⟨next, grown', linked, left_eq, right_eq, pair⟩

/-- A chain of combinators, the outermost one first, down to a union with the given
members.  Every target is resolved, within any limit that is enough for it. -/
inductive Spans (state : ResolverState) : SchemaId → List Combinator → List SchemaId → Prop
  | last {limit : Nat} {id target resolved : SchemaId} {combinator : Combinator}
      {members : List SchemaId} {after : ResolverState}
      (node : state.arena.get? id = some (.mapped combinator target))
      (resolves : resolve limit target state = (.ok resolved, after))
      (union : after.arena.get? resolved = some (.union members)) : Spans state id [combinator] members
  | more {limit : Nat} {id target resolved : SchemaId} {combinator : Combinator}
      {combinators : List Combinator} {members : List SchemaId} {after : ResolverState}
      (node : state.arena.get? id = some (.mapped combinator target))
      (resolves : resolve limit target state = (.ok resolved, after))
      (rest : Spans state resolved combinators members) : Spans state id (combinator :: combinators) members

theorem Spans.mapped (spans : Spans start id combinators members) : ∃ combinator target,
    start.arena.get? id = some (.mapped combinator target) := by
  cases spans with
  | last node _ _ | more node _ _ => exact ⟨_, _, node⟩

theorem Spans.applied (spans : Spans start id combinators members) : combinators ≠ [] := by
  cases spans <;> exact List.cons_ne_nil _ _

/-- Related members that were there before are the same. -/
theorem members_eq {left right : ResolverState} {next : World} {others : List SchemaId}
    (grown : (World.same left right).Extends next) (linked : next.Linked core)
    (issued : ∀ member ∈ members, member.index < left.arena.size)
    (related : List.Forall₂ next.ids members others) : members = others := by
  have same := ((List.forall₂_and_left members others).mpr ⟨issued, related⟩).imp
    fun member other ⟨present, pair⟩ =>
      linked.functional member member other (grown.ids _ _ ⟨rfl, present⟩) pair
  simpa only [List.forall₂_eq_eq_eq] using same

/-- A settled way down the same nodes finds the same. -/
theorem Spans.walks {state : ResolverState} {combinator : Combinator} {target : SchemaId}
    {outer : List Combinator} {first : CombinatorChain} {budget : Nat}
    {found : Option (CombinatorChain × List SchemaId)}
    (spans : Spans start id combinators members) (sound : start.Sound core)
    (sound' : state.Sound core) (grown : start ≤ state)
    (node : state.arena.get? id = some (.mapped combinator target))
    (begun : first.toList = combinator :: outer)
    (walks : Walks state budget first target found) :
    ∃ chain : CombinatorChain, found = some (chain, members) ∧
      chain.toList = combinators.reverse ++ outer := by
  -- Resolving in `start` may add the union that is met; in `state` it stands elsewhere, but
  -- its members are nodes of `start` and the same in both.
  induction spans generalizing combinator target outer first budget with
  | last node' resolves union =>
      cases node.symm.trans (ResolverState.get?_later node' grown)
      obtain ⟨_, other, otherNode, rfl, settled, there, onward⟩ := walks.step sound'
      have present := children_issued sound node' _ (List.mem_cons_self ..)
      obtain ⟨world, grown', linked, left, right, pair⟩ :=
        resolve_related sound sound' grown present resolves settled
      obtain ⟨_, _, here, here', related⟩ := linked.nodes _ _ pair
      rw [left, union] at here
      rw [right, there] at here'
      cases here
      cases here'
      obtain ⟨resolving, resolves⟩ := resolve_settles sound resolves
      have issued := resolved_members sound resolving resolves present union
      cases related with
      | plain plain => exact plain.elim
      | union pairs =>
          cases members_eq grown' linked issued pairs
          exact ⟨first, onward, begun⟩
  | more node' resolves rest ih =>
      cases node.symm.trans (ResolverState.get?_later node' grown)
      obtain ⟨_, other, otherNode, rfl, settled, there, onward⟩ := walks.step sound'
      have present := children_issued sound node' _ (List.mem_cons_self ..)
      obtain ⟨world, grown', linked, left, right, pair⟩ :=
        resolve_related sound sound' grown present resolves settled
      obtain ⟨inner, innerTarget, found_inner⟩ := rest.mapped
      cases linked.functional _ _ _ pair (grown'.ids _ _ ⟨rfl, Arena.index_lt_size found_inner⟩)
      have later := ResolverState.get?_later found_inner grown
      cases there.symm.trans later
      have pushed : (first.push inner).toList = inner :: (_ :: outer) := congrArg (inner :: ·) begun
      obtain ⟨chain, rfl, chained⟩ := ih later pushed onward
      refine ⟨chain, rfl, ?_⟩
      rw [chained, List.reverse_cons, List.append_assoc]
      rfl

/-- What is distributed for a chain has its combinators on each member. -/
theorem Spans.distributed {state : ResolverState} (spans : Spans start id combinators members)
    (sound : start.Sound core) (sound' : state.Sound core) (grown : start ≤ state)
    (known : state.distributions.find? id = some union) :
    ∃ tops, state.arena.get? union = some (.union tops) ∧
      List.Forall₂ (Stacked core state · combinators ·) members tops := by
  obtain ⟨combinator, target, budget, chain, found, tops, node, walks, union_node, towers⟩ :=
    (sound'.distributions id union known).computed
  obtain ⟨_, same, chained⟩ := spans.walks sound sound' grown node rfl walks
  cases same
  refine ⟨tops, union_node, towers.imp fun _ _ tower => ?_⟩
  have stacked := Stacked.tower .base tower
  simpa only [chained, List.append_nil, List.reverse_reverse] using stacked

end Conform.Resolver
