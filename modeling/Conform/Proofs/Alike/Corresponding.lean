import Conform.Proofs.Resolver.KnownShapes
import Conform.Proofs.Resolver.Paired

/-! Two states with related identities.  What both have resolved from related nodes, with the
projections that each remembers and without an addition, is related again; how either of them came
to remember its projections does not matter. -/

namespace Conform.Resolver

open Run

variable {ids : SchemaId → SchemaId → Prop} {left right : ResolverState} {α β γ δ : Type}
  {id other : SchemaId}

/-- Wherever both states have something for related identities, the two are related. -/
structure Corresponds (ids : SchemaId → SchemaId → Prop) (left right : ResolverState) : Prop where
  nodes : ∀ {id other node otherNode}, ids id other → left.arena.get? id = some node →
    right.arena.get? other = some otherNode → Node.Related ids node otherNode
  symbols : ∀ {path symbol id other}, left.arena.symbol? path symbol = some id →
    right.arena.symbol? path symbol = some other → ids id other
  projections : ∀ {id other projected otherProjected}, ids id other →
    left.projections.find? id = some projected →
    right.projections.find? other = some otherProjected → ids projected otherProjected

theorem Corresponds.swap (corresponds : Corresponds ids left right) : Corresponds (flip ids) right left where
  nodes related found found' := (corresponds.nodes related found' found).swap
  symbols found found' := corresponds.symbols found' found
  projections related known known' := corresponds.projections related known' known

/-- Where both runs have an answer they add nothing, and the answers are related. -/
def Concur (left right : ResolverState) (run : Run α) (otherRun : Run β) (post : α → β → Prop) : Prop :=
  ∀ answer otherAnswer after otherAfter, run left = (.ok answer, after) →
    otherRun right = (.ok otherAnswer, otherAfter) →
    after = left ∧ otherAfter = right ∧ post answer otherAnswer

namespace Concur

variable {run first : Run α} {otherRun second : Run β} {next : α → Run γ} {otherNext : β → Run δ}
  {post wider : α → β → Prop} {goal : γ → δ → Prop} {answer : α} {otherAnswer : β}

theorem pure (related : post answer otherAnswer) :
    Concur left right (pure answer : Run α) (pure otherAnswer : Run β) post := by
  intro _ _ _ _ ran ran'
  cases ran
  cases ran'
  exact ⟨rfl, rfl, related⟩

theorem of_left (fails : ∀ answer after, run left ≠ (.ok answer, after)) :
    Concur left right run otherRun post :=
  fun _ _ _ _ ran => (fails _ _ ran).elim

theorem of_right (fails : ∀ answer after, otherRun right ≠ (.ok answer, after)) :
    Concur left right run otherRun post :=
  fun _ _ _ _ _ ran' => (fails _ _ ran').elim

theorem bind (part : Concur left right first second post)
    (rest : ∀ answer otherAnswer, post answer otherAnswer →
      Concur left right (next answer) (otherNext otherAnswer) goal) :
    Concur left right (first >>= next) (second >>= otherNext) goal := by
  intro _ _ _ _ ran ran'
  obtain ⟨_, _, begun, continued⟩ := of_bind_ok ran
  obtain ⟨_, _, begun', continued'⟩ := of_bind_ok ran'
  obtain ⟨rfl, rfl, related⟩ := part _ _ _ _ begun begun'
  exact rest _ _ related _ _ _ _ continued continued'

theorem imp (concur : Concur left right run otherRun post)
    (into : ∀ answer otherAnswer, post answer otherAnswer → wider answer otherAnswer) :
    Concur left right run otherRun wider := by
  intro _ _ _ _ ran ran'
  obtain ⟨same, same', related⟩ := concur _ _ _ _ ran ran'
  exact ⟨same, same', into _ _ related⟩

/-- Two lasting answers are related. -/
theorem lasting (concur : Concur left right run otherRun post) (lasts : Lasts run left answer)
    (lasts' : Lasts otherRun right otherAnswer) : post answer otherAnswer :=
  (concur _ _ _ _ lasts.now lasts'.now).2.2

end Concur

section

variable (corresponds : Corresponds ids left right)

include corresponds

theorem node_concur (related : ids id other) :
    Concur left right (Run.node id) (Run.node other) fun node otherNode =>
      left.arena.get? id = some node ∧ right.arena.get? other = some otherNode ∧
        Node.Related ids node otherNode := by
  intro _ _ _ _ ran ran'
  obtain ⟨found, rfl⟩ := of_node_ok ran
  obtain ⟨found', rfl⟩ := of_node_ok ran'
  exact ⟨rfl, rfl, found, found', corresponds.nodes related found found'⟩

theorem lookupTarget_concur (target : String) :
    Concur left right (lookupTarget target) (lookupTarget target) ids := by
  unfold lookupTarget
  cases Address.ofTarget? target with
  | none => exact .of_left nofun
  | some address =>
      intro _ _ _ _ ran ran'
      obtain ⟨_, _, reads, rest⟩ := of_bind_ok ran
      obtain ⟨_, _, reads', rest'⟩ := of_bind_ok ran'
      cases reads
      cases reads'
      cases found : left.arena.symbol? address.path address.symbol with
      | none =>
          simp only [found] at rest
          cases rest
      | some id =>
          cases found' : right.arena.symbol? address.path address.symbol with
          | none =>
              simp only [found'] at rest'
              cases rest'
          | some other =>
              simp only [found, found'] at rest rest'
              cases rest
              cases rest'
              exact ⟨rfl, rfl, corresponds.symbols found found'⟩

/-- Runs that concur, between two states that stay as they are. -/
def Corresponds.pairing : Pairing where
  World := Unit
  ids _ := ids
  Extends _ _ := True
  Related _ _ _ run other post := Concur left right run other fun answer otherAnswer => post answer otherAnswer ()
  refl _ := trivial
  trans _ _ := trivial
  widen _ _ _ related := related
  pure related := .pure related
  fail _ := .of_left nofun
  bind part rest := .bind part fun answer other related => rest answer other () trivial related
  node related := (node_concur corresponds related).imp fun _ _ found => ⟨rfl, found.2.2⟩

theorem includesUndefined_concur (related : ids id other) :
    Concur left right (includesUndefined id) (includesUndefined other) Eq :=
  have pair : corresponds.pairing.ids () id other := related
  includesUndefined_paired corresponds.pairing pair

theorem hop_concur (related : ids id other) :
    Concur left right (hop recallProjection id) (hop recallProjection other) (Option.Rel ids) := by
  refine .bind (node_concur corresponds related) ?_
  rintro node otherNode ⟨-, -, same⟩
  cases same with
  | @plain node plain =>
      cases node with
      | reference target =>
          exact .bind (lookupTarget_concur corresponds target) fun _ _ pair => .pure (.some pair)
      | _ => first | exact plain.elim | exact .pure .none
  | @indexedAccess object otherObject objects index =>
      have recalled : Concur left right (recallProjection id object index)
          (recallProjection other otherObject index) ids := by
        intro _ _ _ _ ran ran'
        obtain ⟨known, rfl⟩ := recallProjection_known ran
        obtain ⟨known', rfl⟩ := recallProjection_known ran'
        exact ⟨rfl, rfl, corresponds.projections related known known'⟩
      exact .bind recalled fun _ _ pair => .pure (.some pair)
  | _ => exact .pure .none

omit corresponds in
/-- A chain is at its end, or a hop leads on. -/
theorem follow_onward {state after : ResolverState} {resolved : SchemaId} {hops : Nat} {visited : List SchemaId}
    (ran : follow recallProjection hops visited id state = (.ok resolved, after)) :
    (hop recallProjection id state = (.ok none, state) ∧ resolved = id ∧ after = state) ∨
      ∃ next fewer, hops = fewer + 1 ∧ hop recallProjection id state = (.ok (some next), state) ∧
        follow recallProjection fewer (id :: visited) next state = (.ok resolved, after) := by
  have closes (ran : closeChain id state = (.ok resolved, after)) :
      hop recallProjection id state = (.ok none, state) ∧ resolved = id ∧ after = state := by
    have meets := closeChain_meets id state
    obtain ⟨same, node, found, concrete⟩ := meets.answers resolved after ran
    exact ⟨(hop_concrete found concrete).now, same, (meets.always_ok ran).symm⟩
  cases hops with
  | zero => exact .inl (closes ran)
  | succ hops =>
      by_cases met : visited.contains id = true
      · rw [follow_met met] at ran
        exact .inl (closes ran)
      · rw [follow_unmet met] at ran
        obtain ⟨next, middle, hopped, rest⟩ := of_bind_ok ran
        have recalled : hop recallProjection id state = (.ok next, state) ∧ middle = state := hop_recalled hopped
        obtain ⟨-, rfl⟩ := recalled
        cases next with
        | none =>
            cases rest
            exact .inl ⟨hopped, rfl, rfl⟩
        | some next => exact .inr ⟨next, hops, rfl, hopped, rest⟩

theorem follow_concur {hops otherHops : Nat} {visited otherVisited : List SchemaId} (related : ids id other) :
    Concur left right (follow recallProjection hops visited id)
      (follow recallProjection otherHops otherVisited other) ids := by
  induction hops generalizing visited otherVisited otherHops id other with
  | zero =>
      intro _ _ _ _ ran ran'
      rcases follow_onward ran with ⟨ends, rfl, rfl⟩ | ⟨_, _, more, -⟩
      · rcases follow_onward ran' with ⟨ends', rfl, rfl⟩ | ⟨_, _, -, onward', -⟩
        · exact ⟨rfl, rfl, related⟩
        · cases (hop_concur corresponds related _ _ _ _ ends onward').2.2
      · cases more
  | succ hops ih =>
      intro _ _ _ _ ran ran'
      rcases follow_onward ran with ⟨ends, rfl, rfl⟩ | ⟨_, _, more, onward, rest⟩ <;>
        rcases follow_onward ran' with ⟨ends', rfl, rfl⟩ | ⟨_, _, -, onward', rest'⟩
      · exact ⟨rfl, rfl, related⟩
      · cases (hop_concur corresponds related _ _ _ _ ends onward').2.2
      · cases (hop_concur corresponds related _ _ _ _ onward ends').2.2
      · cases more
        cases (hop_concur corresponds related _ _ _ _ onward onward').2.2 with
        | some pair => exact ih pair _ _ _ _ rest rest'

theorem resolve_concur (related : ids id other) :
    Concur left right (resolveWithin 0 1 id) (resolveWithin 0 1 other) ids := by
  intro _ _ _ _ ran ran'
  rw [resolveWithin_succ] at ran ran'
  exact follow_concur corresponds related _ _ _ _ ran ran'

theorem Resolves.related {resolved otherResolved : SchemaId} (related : ids id other)
    (resolves : Resolves left id resolved) (resolves' : Resolves right other otherResolved) :
    ids resolved otherResolved :=
  (resolve_concur corresponds related).lasting resolves resolves'

theorem walkChain_concur {budget otherBudget : Nat} {chain otherChain : CombinatorChain}
    (chains : List.Forall₂ (Combinator.Related ids) chain.toList otherChain.toList)
    (related : ids id other) :
    Concur left right (walkChain 0 (resolveWithin 0 1) budget chain id)
      (walkChain 0 (resolveWithin 0 1) otherBudget otherChain other)
      (Option.Rel (WalkRelated ids)) := by
  induction budget generalizing otherBudget chain otherChain id other with
  | zero => exact .of_left nofun
  | succ budget ih =>
      cases otherBudget with
      | zero => exact .of_right nofun
      | succ otherBudget =>
          refine .bind (resolve_concur corresponds related) fun resolved otherResolved pair => ?_
          refine .bind (node_concur corresponds pair) ?_
          rintro node otherNode ⟨-, -, same⟩
          cases same with
          | union members => exact .pure (.some ⟨chains, members⟩)
          | interface _ _ _ => exact .pure .none
          | mapped combinators targets => exact ih (.cons combinators chains) targets
          | @plain node plain => cases node <;> first | exact plain.elim | exact .of_left nofun
          | _ => exact .of_left nofun

theorem Walks.related {budget otherBudget : Nat} {chain otherChain : CombinatorChain}
    {found otherFound : Option (CombinatorChain × List SchemaId)}
    (chains : List.Forall₂ (Combinator.Related ids) chain.toList otherChain.toList)
    (related : ids id other) (walks : Walks left budget chain id found)
    (walks' : Walks right otherBudget otherChain other otherFound) :
    Option.Rel (WalkRelated ids) found otherFound :=
  (walkChain_concur corresponds chains related).lasting walks walks'

/-- From shapes that are recalled. -/
theorem flattenNode_concur {older otherOlder : List (SchemaId × Shape)}
    (recalls : ∀ {id other}, ids id other →
      Concur left right (recallShape older id) (recallShape otherOlder other) (Shape.Related ids))
    (related : ids id other) :
    Concur left right (flattenNode (resolveWithin 0 1) (recallShape older) id)
      (flattenNode (resolveWithin 0 1) (recallShape otherOlder) other) (Shape.Related ids) :=
  have pair : corresponds.pairing.ids () id other := related
  flattenNode_paired corresponds.pairing (fun _ => resolve_concur corresponds) (fun _ => recalls)
    (corresponds.pairing.refl ()) pair

end

end Conform.Resolver
