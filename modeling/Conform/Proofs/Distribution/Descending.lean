import Conform.Proofs.Distribution.Spanning
import Conform.Proofs.Resolver.Steady

/-! Chains of combinators that have no shape.  The walk that distributes a combinator and the
recursion that flattens it go down one chain, and come to one error. -/

namespace Conform.Distributed

open Run Resolver Agreement Validator

variable {core limit steps budget : Nat} {before after state last : ResolverState}
  {id target resolved other : SchemaId} {combinator : Combinator} {chain : CombinatorChain}
  {members passed others pending : List SchemaId} {error again : SchemaError} {shape : Shape}

/-- The way down from the target of a combinator to an error, past the listed combinators: the
last target is no interface or combinator, or is not resolved. -/
inductive Descends (state : ResolverState) :
    Combinator → SchemaId → List SchemaId → SchemaError → Prop
  | misses {combinator : Combinator} {target resolved : SchemaId} {node : Node}
      (resolves : Resolves state target resolved) (found : state.arena.get? resolved = some node)
      (unlike : node.isInterfaceLike = false) :
      Descends state combinator target [] (.invalidCombinatorTarget combinator.kind node.kind)
  | stuck {combinator : Combinator} {target : SchemaId} {error : SchemaError}
      (fails : Converges (fun steps => (resolveWithin 0 steps target state).1) (.error error)) :
      Descends state combinator target [] error
  | passes {combinator inner : Combinator} {target resolved innerTarget : SchemaId}
      {passed : List SchemaId} {error : SchemaError} (resolves : Resolves state target resolved)
      (found : state.arena.get? resolved = some (.mapped inner innerTarget))
      (rest : Descends state inner innerTarget passed error) :
      Descends state combinator target (resolved :: passed) error

theorem resolves_converges (resolves : Resolves state target resolved) :
    Converges (fun steps => (resolveWithin 0 steps target state).1) (.ok resolved) := by
  refine ⟨1, fun steps enough => ?_⟩
  obtain ⟨fewer, rfl⟩ := Nat.exists_eq_add_of_le' enough
  exact congrArg Prod.fst (resolves.lasts 0 fewer).now

theorem not_stuck (resolves : Resolves state target resolved) :
    ¬ Converges (fun steps => (resolveWithin 0 steps target state).1) (.error error) :=
  fun fails => nomatch (resolves_converges resolves).unique fails

namespace Descends

theorem unique (descends : Descends state combinator target passed error)
    (descends' : Descends state combinator target others again) : passed = others ∧ error = again := by
  induction descends generalizing others again with
  | misses resolves found unlike =>
      cases descends' with
      | misses resolves' found' _ =>
          cases resolves.unique resolves'
          cases found.symm.trans found'
          exact ⟨rfl, rfl⟩
      | stuck fails => exact (not_stuck resolves fails).elim
      | passes resolves' found' _ =>
          cases resolves.unique resolves'
          cases found.symm.trans found'
          cases unlike
  | stuck fails =>
      cases descends' with
      | misses resolves' _ _ => exact (not_stuck resolves' fails).elim
      | stuck fails' =>
          cases fails.unique fails'
          exact ⟨rfl, rfl⟩
      | passes resolves' _ _ => exact (not_stuck resolves' fails).elim
  | passes resolves found _ ih =>
      cases descends' with
      | misses resolves' found' unlike =>
          cases resolves.unique resolves'
          cases found.symm.trans found'
          cases unlike
      | stuck fails => exact (not_stuck resolves fails).elim
      | passes resolves' found' rest =>
          cases resolves.unique resolves'
          cases found.symm.trans found'
          obtain ⟨rfl, rfl⟩ := ih rest
          exact ⟨rfl, rfl⟩

/-- From a combinator on the way the way is shorter. -/
theorem onward (descends : Descends state combinator target passed error) (listed : id ∈ passed) :
    ∃ inner innerTarget fewer, state.arena.get? id = some (.mapped inner innerTarget) ∧
      Descends state inner innerTarget fewer error ∧ fewer.length < passed.length := by
  induction descends with
  | misses | stuck => cases listed
  | passes _ found rest ih =>
      rcases List.mem_cons.mp listed with rfl | listed
      · exact ⟨_, _, _, found, rest, Nat.lt_succ_self _⟩
      · obtain ⟨inner, innerTarget, fewer, there, shorter, less⟩ := ih listed
        exact ⟨inner, innerTarget, fewer, there, shorter, Nat.lt_succ_of_lt less⟩

theorem fresh (descends : Descends state combinator target passed error)
    (node : state.arena.get? id = some (.mapped combinator target)) : id ∉ passed := by
  intro listed
  obtain ⟨inner, innerTarget, fewer, there, shorter, less⟩ := descends.onward listed
  cases node.symm.trans there
  rw [(descends.unique shorter).1] at less
  exact Nat.lt_irrefl _ less

/-- The chain does not end in an interface. -/
theorem not_walks (descends : Descends state combinator target passed error)
    (sound : state.Sound core) : ¬ Walks state budget chain target none := by
  intro walks
  induction descends generalizing budget chain with
  | @misses _ _ _ node resolves found unlike =>
      obtain ⟨_, _, _, -, resolves', found', ends⟩ := walks.step sound
      cases resolves.unique resolves'
      cases found.symm.trans found'
      cases node with
      | interface _ _ _ | mapped _ _ => cases unlike
      | union _ => cases ends
      | _ => exact ends
  | stuck fails =>
      obtain ⟨_, _, _, -, resolves, -⟩ := walks.step sound
      exact not_stuck resolves fails
  | passes resolves found _ ih =>
      obtain ⟨_, _, _, -, resolves', found', onward⟩ := walks.step sound
      cases resolves.unique resolves'
      cases found.symm.trans found'
      exact ih onward

theorem shapeless (descends : Descends state combinator target passed error) (sound : state.Sound core)
    (node : state.arena.get? id = some (.mapped combinator target)) :
    state.shapes.find? id = none := by
  cases known : state.shapes.find? id with
  | none => rfl
  | some shape =>
      cases undistributed_of_known sound known _ node rfl with
      | interface node' => cases node.symm.trans node'
      | mapped node' walks =>
          cases node.symm.trans node'
          exact (descends.not_walks sound walks).elim

end Descends

/-- A combinator has no shape where its target has none. -/
theorem flatten_target_fails (unknown : state.shapes.find? id = none) (apart : id ∉ pending)
    (node : state.arena.get? id = some (.mapped combinator target))
    (fails : (flattenTarget (resolveWithin limit steps) (flattenWithin limit steps (id :: pending))
      combinator target state).1 = .error error) :
    (flattenWithin limit (steps + 1) pending id state).1 = .error error := by
  cases ran : flattenTarget (resolveWithin limit steps) (flattenWithin limit steps (id :: pending))
      combinator target state with
  | mk outcome after =>
      rw [ran] at fails
      cases fails
      have failed : flattenNode (resolveWithin limit steps) (flattenWithin limit steps (id :: pending))
          id state = (.error error, after) := (bind_ok (node_apply node)).trans (bind_error ran)
      rw [flattenWithin_unknown unknown (by simpa using apart), bind_error failed]

/-- The recursion that flattens goes the same way: nothing on it waits for its own shape. -/
theorem Descends.flatten_fails (descends : Descends state combinator target passed error)
    (sound : state.Sound core) (node : state.arena.get? id = some (.mapped combinator target))
    (apart : ∀ waiting ∈ pending, waiting ∉ id :: passed) :
    Converges (fun steps => (flattenWithin 0 steps pending id state).1) (.error error) := by
  have unknown := descends.shapeless sound node
  have fresh := descends.fresh node
  have free : id ∉ pending := fun waits => apart id waits (List.mem_cons_self ..)
  induction descends generalizing id pending with
  | misses resolves found unlike =>
      refine .of_succ (.of_succ ⟨0, fun steps _ => flatten_target_fails unknown free node ?_⟩)
      simp only [flattenTarget, bind_ok (resolves.lasts 0 steps).now, bind_ok (node_apply found), unlike]
      rfl
  | stuck fails =>
      obtain ⟨enough, ends⟩ := fails
      refine .of_succ ⟨enough, fun steps above => flatten_target_fails unknown free node ?_⟩
      have failed : resolveWithin 0 steps _ state = (.error _, _) := Prod.ext (ends steps above) rfl
      exact congrArg Prod.fst (bind_error failed)
  | @passes _ _ _ resolved _ passed _ resolves found rest ih =>
      have later : ∀ waiting ∈ id :: pending, waiting ∉ resolved :: passed := by
        intro waiting listed
        rcases List.mem_cons.mp listed with rfl | listed
        · exact fresh
        · exact fun inside => apart waiting listed (List.mem_cons_of_mem _ inside)
      obtain ⟨enough, ends⟩ := ih found later (rest.shapeless sound found) (rest.fresh found)
        fun waits => later _ waits (List.mem_cons_self ..)
      refine .of_succ (.of_succ ⟨enough, fun steps above => flatten_target_fails unknown free node ?_⟩)
      simp only [flattenTarget, bind_ok (resolves.lasts 0 steps).now, bind_ok (node_apply found),
        Node.isInterfaceLike]
      exact ends (steps + 1) (Nat.le_succ_of_le above)

/-- A settled way down to a union. -/
theorem descends_of_walks {first : CombinatorChain} (sound : state.Sound core)
    (walks : Walks state budget first target (some (chain, members))) :
    ∃ passed, Descends state first.innermost target passed
      (.invalidCombinatorTarget chain.innermost.kind .union) := by
  induction budget generalizing first target with
  | zero => cases walks.now
  | succ budget ih =>
      obtain ⟨fewer, resolved, node, same, resolves, found, onward⟩ := walks.step sound
      cases same
      cases node with
      | union _ =>
          cases onward
          exact ⟨[], .misses resolves found rfl⟩
      | mapped inner innerTarget =>
          obtain ⟨passed, rest⟩ := ih onward
          exact ⟨resolved :: passed, .passes resolves found rest⟩
      | interface _ _ _ => cases onward
      | _ => exact onward.elim

/-- A walk that fails before a state, on the way down as it is known there. -/
theorem descends_of_failed (sound : before.Sound core) (last_sound : last.Sound core)
    (present : target.index < before.arena.size)
    (failed : walkChain limit (resolveWithin limit steps) budget chain target before = (.error error, after))
    (grown : after ≤ last) (decided : ∀ limit, error ≠ .depthLimitExceeded limit) :
    ∃ passed, Descends last chain.innermost target passed error := by
  induction budget generalizing before chain target with
  | zero =>
      cases failed
      exact (decided limit rfl).elim
  | succ budget ih =>
      have meets := resolveWithin_meets limit steps target before sound
      cases ran : resolveWithin limit steps target before with
      | mk outcome middle =>
          have resolving : Resolving core before middle := by simpa only [ran] using meets.leaves
          cases outcome with
          | error stopped =>
              cases (bind_error ran).symm.trans failed
              have linked : (World.same before last).Linked core :=
                .same sound last_sound (le_trans resolving.grown grown)
              refine ⟨[], .stuck ⟨steps, fun more enough => ?_⟩⟩
              exact (resolveWithin_agrees limit steps 0 more _ target target linked ⟨rfl, present⟩)
                |>.of_left_error (by omega) ran decided
          | ok resolved =>
              obtain ⟨resolves, ⟨node, found, -, -⟩, -⟩ := meets.answers resolved middle ran
              have failed := (bind_ok ran).symm.trans failed
              have failed := (bind_ok (node_apply found)).symm.trans failed
              cases node with
              | mapped combinator inner =>
                  have onward : Stable core
                      (walkChain limit (resolveWithin limit steps) budget (chain.push combinator) inner) :=
                    walkChain_stable limit steps budget _ inner
                  have beyond := (onward middle resolving.sound).leaves.grown
                  have failed : walkChain limit (resolveWithin limit steps) budget
                      (chain.push combinator) inner middle = (.error error, after) := failed
                  rw [failed] at beyond
                  have here := le_trans beyond grown
                  have inside := children_issued resolving.sound found inner (List.mem_cons_self ..)
                  obtain ⟨passed, rest⟩ := ih resolving.sound inside failed
                  exact ⟨resolved :: passed, .passes (resolves.later here)
                    (ResolverState.get?_later found here) rest⟩
              | union _ | interface _ _ _ => cases failed
              | _ =>
                  cases failed
                  exact ⟨[], .misses (resolves.later grown) (ResolverState.get?_later found grown) rfl⟩

/-- A distribution that fails before a state has met that way down. -/
theorem descends_of_distribute (sound : before.Sound core) (last_sound : last.Sound core)
    (node : before.arena.get? id = some (.mapped combinator target))
    (ran : distributeWithin limit steps id before = (.error error, after)) (grown : after ≤ last)
    (decided : ∀ limit, error ≠ .depthLimitExceeded limit) :
    ∃ passed, Descends last combinator target passed error := by
  have unknown : before.distributions.find? id = none := by
    cases known : before.distributions.find? id with
    | none => rfl
    | some union => cases (distributeWithin_known known limit steps).now.symm.trans ran
  cases steps with
  | zero =>
      have stopped : distributeWithin limit 0 id before = (.error (.depthLimitExceeded limit), before) := by
        simp only [distributeWithin, bind_ok (read_apply _), unknown]
        rfl
      cases stopped.symm.trans ran
      exact (decided limit rfl).elim
  | succ steps =>
      cases walked : walkChain limit (resolveWithin limit steps) limit ⟨combinator, []⟩ target before with
      | mk outcome middle =>
          rcases outcome with _ | _ | ⟨chain, members⟩
          · cases (distributeWithin_failed node unknown walked).symm.trans ran
            have present := children_issued sound node target (List.mem_cons_self ..)
            exact descends_of_failed sound last_sound present walked grown decided
          · cases (distributeWithin_stopped node unknown walked).symm.trans ran
          · obtain ⟨_, _, _, adds⟩ := distributeTail_adds id chain.toList members middle
            cases ((distributeWithin_walked node unknown walked).trans adds).symm.trans ran

/-- On such a way down a flattening fails, in any earlier state as well. -/
theorem Descends.flattens (descends : Descends last combinator target passed error)
    (sound : before.Sound core) (last_sound : last.Sound core) (grown : before ≤ last)
    (node : before.arena.get? id = some (.mapped combinator target))
    (unlimited : ¬ IsLimited (flatten limit id before).1) :
    (flatten limit id before).1 = .error error := by
  have later := ResolverState.get?_later node grown
  obtain ⟨enough, ends⟩ := descends.flatten_fails last_sound later (List.forall_mem_nil _)
  have fails := ends (max enough limit) (Nat.le_max_left ..)
  have agrees := flattenWithin_agrees limit limit 0 (max enough limit) _ id id
    (World.Linked.same sound last_sound grown) ⟨rfl, Arena.index_lt_size node⟩
  cases ran : flatten limit id before with
  | mk outcome after =>
      rw [ran] at unlimited
      cases outcome with
      | error other =>
          have same := agrees.of_left_error (by omega) ran fun limit limited =>
            unlimited ⟨limit, congrArg _ limited⟩
          exact same.symm.trans fails
      | ok shape =>
          obtain ⟨_, _, ran', -⟩ := agrees.of_left (by omega) ran
          cases (congrArg Prod.fst ran').symm.trans fails

/-- A settled way down to a union, read as a chain. -/
theorem spans_of_walks {first : CombinatorChain} (sound : state.Sound core)
    (node : state.arena.get? id = some (.mapped first.innermost target))
    (walks : Walks state budget first target (some (chain, members))) :
    ∃ combinators, Spans state id (combinators ++ [chain.innermost]) members := by
  induction budget generalizing first target id with
  | zero => cases walks.now
  | succ budget ih =>
      obtain ⟨fewer, resolved, targetNode, same, resolves, found, onward⟩ := walks.step sound
      cases same
      have ran : resolve 1 target state = (.ok resolved, state) := (resolves.lasts 1 0).now
      cases targetNode with
      | union _ =>
          cases onward
          exact ⟨[], .last node ran found⟩
      | mapped inner innerTarget =>
          obtain ⟨combinators, rest⟩ := ih found onward
          exact ⟨_ :: combinators, .more node ran rest⟩
      | interface _ _ _ => cases onward
      | _ => exact onward.elim

end Conform.Distributed
