import Conform.Proofs.Resolver.Congruence
import Conform.Proofs.Resolver.Repeating

/-! Steady runs.  An answer is given again in all later states, an error at once; and whatever nodes
a run adds, each has an origin. -/

namespace Conform.Resolver

open Run

variable {core limit steps : Nat} {α β : Type} {run first : Run α} {next : α → Run β}
  {state after : ResolverState} {id : SchemaId}

/-- From here, nodes are added for an origin each, and an error is found again. -/
structure SteadyAt (run : Run α) (state : ResolverState) : Prop where
  traced : Traced state (run state).2
  repeats : ∀ error after, run state = (.error error, after) → run after = (.error error, after)

theorem SteadyAt.of_idle (idle : (run state).2 = state) : SteadyAt run state := by
  refine ⟨.of_arena_eq (by rw [idle]), fun error after ran => ?_⟩
  rw [ran] at idle
  cases idle
  exact ran

structure Steady (core : Nat) (run : Run α) : Prop where
  stable : Stable core run
  here : ∀ state, state.Sound core → SteadyAt run state

namespace Steady

theorem pure (answer : α) : Steady core (pure answer : Run α) :=
  ⟨.pure answer, fun _ _ => .of_idle rfl⟩

theorem fail (error : SchemaError) : Steady core (Run.fail error : Run α) :=
  ⟨.fail error, fun _ _ => .of_idle rfl⟩

theorem node (id : SchemaId) : Steady core (Run.node id) := by
  refine ⟨.node id, fun state _ => .of_idle ?_⟩
  cases found : state.arena.get? id with
  | some node => rw [node_apply found]
  | none => rw [node_missing found]

theorem bind (part : Steady core first) (rest : ∀ answer, Steady core (next answer)) :
    Steady core (first >>= next) := by
  refine ⟨part.stable.bind fun answer => (rest answer).stable, fun state sound => ?_⟩
  obtain ⟨traced, repeats⟩ := part.here state sound
  cases ran : first state with
  | mk outcome middle =>
      rw [ran] at traced
      cases outcome with
      | error error =>
          have whole : (first >>= next) state = (.error error, middle) := bind_error ran
          refine ⟨by rwa [whole], fun other after failed => ?_⟩
          cases whole.symm.trans failed
          exact bind_error (repeats error middle ran)
      | ok answer =>
          have whole : (first >>= next) state = next answer middle := bind_ok ran
          have grows := part.stable.grows sound ran
          have onward := ((rest answer).stable middle grows.sound).leaves
          obtain ⟨traced', repeats'⟩ := (rest answer).here middle grows.sound
          refine ⟨whole ▸ traced.trans grows.grown traced' onward.grown, fun error after failed => ?_⟩
          rw [whole] at failed
          rw [failed] at onward
          exact (bind_ok (part.stable.again sound ran after onward.grown onward.sound)).trans
            (repeats' error after failed)

end Steady

/-- What is put together from steady runs is steady. -/
def steadiness (core : Nat) : Congruence where
  Related run _ := Steady core run
  pure := .pure
  bind part rest := part.bind rest

theorem Steady.of_careful {family : Family α} {chain : List SchemaId} {extra : Nat}
    (stable : Stable core (family steps chain))
    (careful : ∀ state, state.Sound core → Careful core limit steps chain extra family state) :
    Steady core (family steps chain) := by
  refine ⟨stable, fun state sound => ?_⟩
  have spares := (careful state sound).spares [] (fun _ listed => (List.not_mem_nil listed).elim)
    (.nil state family)
  exact ⟨spares.traced, spares.repeats⟩

theorem resolveWithin_steady (limit steps : Nat) (id : SchemaId) :
    Steady core (resolveWithin limit steps id) :=
  .of_careful (resolveWithin_stable limit steps id) ((within_careful limit steps).1 [] id)

theorem flattenWithin_steady (limit steps : Nat) (chain : List SchemaId) (id : SchemaId) :
    Steady core (flattenWithin limit steps chain id) :=
  .of_careful (flattenWithin_stable limit steps chain id) ((within_careful limit steps).2 chain id)

theorem walkChain_steady (limit steps budget : Nat) (chain : CombinatorChain) (target : SchemaId) :
    Steady core (walkChain limit (resolveWithin limit steps) budget chain target) := by
  induction budget generalizing chain target with
  | zero => exact .fail _
  | succ budget ih =>
      refine .bind (resolveWithin_steady limit steps target) fun resolved => .bind (.node resolved) fun node => ?_
      cases node with
      | union _ | interface _ _ _ => exact .pure _
      | mapped combinator inner => exact ih _ inner
      | _ => exact .fail _

theorem distributeNode_unknown (unknown : state.distributions.find? id = none) :
    distributeWithin limit (steps + 1) id state = distributeNode limit steps id state := by
  simp only [distributeWithin, bind_ok (read_apply _), unknown]

section

variable {combinator : Combinator} {target : SchemaId} {middle : ResolverState}
  (access : state.arena.get? id = some (.mapped combinator target))
  (unknown : state.distributions.find? id = none)

include access unknown

theorem distributeWithin_failed {error : SchemaError}
    (walked : walkChain limit (resolveWithin limit steps) limit ⟨combinator, []⟩ target state =
      (.error error, middle)) :
    distributeWithin limit (steps + 1) id state = (.error error, middle) :=
  (distributeNode_unknown unknown).trans ((bind_ok (node_apply access)).trans (bind_error walked))

theorem distributeWithin_stopped
    (walked : walkChain limit (resolveWithin limit steps) limit ⟨combinator, []⟩ target state =
      (.ok none, middle)) :
    distributeWithin limit (steps + 1) id state = (.ok none, middle) :=
  (distributeNode_unknown unknown).trans ((bind_ok (node_apply access)).trans (bind_ok walked))

theorem distributeWithin_walked {chain : CombinatorChain} {members : List SchemaId}
    (walked : walkChain limit (resolveWithin limit steps) limit ⟨combinator, []⟩ target state =
      (.ok (some (chain, members)), middle)) :
    distributeWithin limit (steps + 1) id state = distributeTail id chain.toList members middle :=
  (distributeNode_unknown unknown).trans ((bind_ok (node_apply access)).trans (bind_ok walked))

/-- The chain is walked down first; only then anything is remembered, and that without fail. -/
theorem distributeNode_steadyAt (sound : state.Sound core) :
    SteadyAt (distributeWithin limit (steps + 1) id) state := by
  obtain ⟨traced, repeats⟩ := (walkChain_steady limit steps limit ⟨combinator, []⟩ target).here state sound
  have resolving : Resolving core state
      (walkChain limit (resolveWithin limit steps) limit ⟨combinator, []⟩ target state).2 :=
    (walkChain_meets limit steps limit sound (single_issued sound access)).leaves
  cases walked : walkChain limit (resolveWithin limit steps) limit ⟨combinator, []⟩ target state with
  | mk outcome middle =>
      rw [walked] at traced resolving
      have unknown' : middle.distributions.find? id = none := by rw [resolving.distributions, unknown]
      cases outcome with
      | error error =>
          have whole := distributeWithin_failed access unknown walked
          refine ⟨by rwa [whole], fun other after failed => ?_⟩
          cases whole.symm.trans failed
          exact distributeWithin_failed (ResolverState.get?_later access resolving.grown) unknown'
            (repeats error middle walked)
      | ok answer =>
          cases answer with
          | none =>
              have whole := distributeWithin_stopped access unknown walked
              exact ⟨by rwa [whole], fun error after failed => by cases whole.symm.trans failed⟩
          | some answer =>
              obtain ⟨chain, members⟩ := answer
              obtain ⟨union, after, ran, grown, added⟩ := distributeTail_stacks members
                (ResolverState.get?_later access resolving.grown) unknown'
              have whole := (distributeWithin_walked access unknown walked).trans ran
              refine ⟨?_, fun error last failed => by cases whole.symm.trans failed⟩
              rw [whole]
              exact traced.trans resolving.grown added grown

end

theorem distributeWithin_steady (limit steps : Nat) (id : SchemaId) :
    Steady core (distributeWithin limit steps id) := by
  refine ⟨distributeWithin_stable limit steps id, fun state sound => ?_⟩
  cases known : state.distributions.find? id with
  | some union =>
      exact .of_idle (congrArg Prod.snd (distributeWithin_known known limit steps state (le_refl _)))
  | none =>
      cases steps with
      | zero =>
          refine .of_idle ?_
          simp only [distributeWithin, bind_ok (read_apply _), known, Run.fail]
      | succ steps =>
          cases found : state.arena.get? id with
          | none =>
              exact .of_idle (congrArg Prod.snd
                ((distributeNode_unknown known).trans (bind_error (node_missing found))))
          | some node =>
              cases node with
              | mapped combinator target => exact distributeNode_steadyAt found known sound
              | _ =>
                  exact .of_idle (congrArg Prod.snd
                    ((distributeNode_unknown known).trans (bind_ok (node_apply found))))

/-- Runs that remember no foreign fields. -/
def keepsForeign : Congruence where
  Related run _ := ∀ state, (run state).2.foreign = state.foreign
  pure _ _ := rfl
  bind {_ _ first _ next _} part rest state := by
    have before := part state
    cases ran : first state with
    | mk outcome middle =>
        rw [ran] at before
        cases outcome with
        | ok answer =>
            rw [bind_ok ran]
            exact (rest answer middle).trans before
        | error error =>
            rw [bind_error ran]
            exact before

theorem keepsForeign_steps : keepsForeign.Steps where
  fail _ _ := rfl
  read _ _ := rfl
  node id state := by
    cases found : state.arena.get? id with
    | some node => rw [node_apply found]
    | none => rw [node_missing found]
  alloc _ _ := rfl
  keepShape _ _ _ := rfl
  keepProjection _ _ _ := rfl
  keepDistribution _ _ _ := rfl

theorem collectWithin_steady (limit steps : Nat) (collected : Collected) (ids : List SchemaId) :
    Steady core (collectWithin limit steps collected ids) := by
  induction steps generalizing collected ids with
  | zero => exact .fail _
  | succ steps ih =>
      have visits (collected : Collected) (id : SchemaId) :
          Steady core (visit limit steps (collectWithin limit steps) collected id) := by
        refine .bind (resolveWithin_steady limit steps id) fun resolved => ?_
        split
        · exact .pure _
        · refine .bind (.node resolved) fun node => ?_
          cases node with
          | union members | intersection members => exact ih _ _
          | interface _ _ _ | mapped _ _ =>
              refine .bind (distributeWithin_steady limit steps resolved) fun union => ?_
              cases union with
              | some union => exact ih _ _
              | none => exact .bind (flattenWithin_steady limit steps [] resolved) fun _ => .pure _
          | _ => exact .pure _
      have related : (steadiness core).Related (collectWithin limit (steps + 1) collected ids)
          (collectWithin limit (steps + 1) collected ids) :=
        (steadiness core).foldlM (fun collected id _ => visits collected id) collected
      exact related

theorem foreignFields_steady (limit : Nat) (id : SchemaId) : Steady core (foreignFields limit id) := by
  refine ⟨foreignFields_stable limit id, fun state sound => ?_⟩
  cases known : state.foreign.find? id with
  | some fields =>
      refine .of_idle ?_
      simp only [foreignFields, bind_ok (read_apply _), known, pure_apply]
  | none =>
      have runs (later : ResolverState) (unknown : later.foreign.find? id = none) :
          foreignFields limit id later = (collectWithin limit limit .empty [id] >>= fun collected =>
            keepForeign id collected.fields) later := by
        simp only [foreignFields, bind_ok (read_apply _), unknown]
      have kept := collectWithin_self keepsForeign_steps limit limit .empty [id] state
      obtain ⟨traced, repeats⟩ := (collectWithin_steady limit limit .empty [id]).here state sound
      cases ran : collectWithin limit limit .empty [id] state with
      | mk outcome middle =>
          rw [ran] at kept traced
          cases outcome with
          | error error =>
              have whole := (runs state known).trans (bind_error ran)
              refine ⟨by rwa [whole], fun other after failed => ?_⟩
              cases whole.symm.trans failed
              exact (runs middle (by rw [kept, known])).trans (bind_error (repeats error middle ran))
          | ok collected =>
              have whole := (runs state known).trans ((bind_ok ran).trans keepForeign_apply)
              have grows := (collectWithin_stable limit limit .empty [id]).grows sound ran
              refine ⟨?_, fun error after failed => by cases whole.symm.trans failed⟩
              rw [whole]
              exact traced.trans grows.grown (.of_arena_eq rfl) (le_keepForeign _ _ _)

theorem resolve_steady (limit : Nat) (id : SchemaId) : Steady core (resolve limit id) :=
  resolveWithin_steady limit limit id

theorem flatten_steady (limit : Nat) (id : SchemaId) : Steady core (flatten limit id) :=
  flattenWithin_steady limit limit [] id

theorem distribute_steady (limit : Nat) (id : SchemaId) : Steady core (distribute limit id) :=
  distributeWithin_steady limit limit id

end Conform.Resolver
