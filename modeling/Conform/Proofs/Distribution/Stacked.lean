import Conform.Proofs.Distribution.Answers

/-! Combinators on a member.  The way down from the outermost of them leads through
all of them to the member, so what is found there depends on them and on the
member alone, and not on the nodes that they are. -/

namespace Conform.Resolver

open Run

variable {core : Nat} {before state after : ResolverState} {member bottom inner top origin : SchemaId}
  {combinator : Combinator} {combinators done : List Combinator}

/-- Combinators on a member, the outermost one first, by nodes outside of the
core. -/
inductive Stacked (core : Nat) (state : ResolverState) (member : SchemaId) :
    List Combinator → SchemaId → Prop
  | base : Stacked core state member [] member
  | apply {combinator : Combinator} {combinators : List Combinator} {inner top : SchemaId}
      (node : state.arena.get? top = some (.mapped combinator inner)) (late : core ≤ top.index)
      (rest : Stacked core state member combinators inner) :
      Stacked core state member (combinator :: combinators) top

theorem Stacked.later (stacked : Stacked core before member combinators top) (grown : before ≤ after) :
    Stacked core after member combinators top := by
  induction stacked with
  | base => exact .base
  | apply node late _ ih => exact .apply (ResolverState.get?_later node grown) late ih

theorem Stacked.mapped (stacked : Stacked core state member combinators top)
    (applied : combinators ≠ []) : ∃ combinator inner,
      state.arena.get? top = some (.mapped combinator inner) := by
  cases stacked with
  | base => exact (applied rfl).elim
  | apply node _ _ => exact ⟨_, _, node⟩

/-- Combinators on a member, the outermost one by any node. -/
inductive Capped (core : Nat) (state : ResolverState) (member : SchemaId) :
    List Combinator → SchemaId → Prop
  | apply {combinator : Combinator} {combinators : List Combinator} {inner top : SchemaId}
      (node : state.arena.get? top = some (.mapped combinator inner))
      (rest : Stacked core state member combinators inner) :
      Capped core state member (combinator :: combinators) top

theorem Stacked.capped (stacked : Stacked core state member combinators top) (applied : combinators ≠ []) :
    Capped core state member combinators top := by
  cases stacked with
  | base => exact (applied rfl).elim
  | apply node _ rest => exact .apply node rest

theorem Capped.later (capped : Capped core before member combinators top) (grown : before ≤ after) :
    Capped core after member combinators top := by
  cases capped with
  | apply node rest => exact .apply (ResolverState.get?_later node grown) (rest.later grown)

/-- Distribution stacks its combinators, the last one outermost. -/
theorem Stacked.tower (stacked : Stacked core state member done bottom)
    (tower : Tower core state origin combinators bottom top) :
    Stacked core state member (combinators.reverse ++ done) top := by
  induction tower generalizing done with
  | base => exact stacked
  | apply node late _ _ ih =>
      rw [List.reverse_cons, List.append_assoc]
      exact ih (.apply node late stacked)

theorem CombinatorChain.ext {chain other : CombinatorChain} (same : chain.toList = other.toList) :
    chain = other := by
  cases chain
  cases other
  cases same
  rfl

theorem CombinatorChain.toList_pushes (chain : CombinatorChain) (combinators : List Combinator) :
    (combinators.foldl push chain).toList = combinators.reverse ++ chain.toList := by
  induction combinators generalizing chain with
  | nil => rfl
  | cons combinator rest ih =>
      rw [List.foldl_cons, ih, List.reverse_cons, List.append_assoc]
      rfl

theorem CombinatorChain.applied {chain : CombinatorChain} (chained : chain.toList = combinators.reverse) :
    combinators ≠ [] := by
  rintro rfl
  cases chained

/-- A combinator resolves to itself. -/
theorem resolve_mapped (node : state.arena.get? top = some (.mapped combinator inner))
    (limit steps : Nat) : resolveWithin limit (steps + 1) top state = (.ok top, state) :=
  ((resolves_concrete node trivial).lasts limit steps).now

theorem walkChain_stacked (stacked : Stacked core state member combinators top)
    (limit steps budget : Nat) (chain : CombinatorChain) :
    walkChain limit (resolveWithin limit (steps + 1)) (budget + combinators.length) chain top state =
      walkChain limit (resolveWithin limit (steps + 1)) budget (combinators.foldl .push chain) member
        state := by
  induction stacked generalizing chain with
  | base => rfl
  | apply node _ _ ih =>
      exact (bind_ok (resolve_mapped node limit steps)).trans
        ((bind_ok (node_apply node)).trans (ih _))

theorem walkChain_stable (limit steps budget : Nat) (chain : CombinatorChain) (target : SchemaId) :
    Stable core (walkChain limit (resolveWithin limit steps) budget chain target) := by
  induction budget generalizing chain target with
  | zero => exact .fail _
  | succ budget ih =>
      refine .bind (resolveWithin_stable limit steps target) fun resolved => ?_
      refine .bind (.node resolved) fun node => ?_
      cases node with
      | mapped combinator inner => exact ih _ _
      | union _ | interface _ _ _ => exact .pure _
      | _ => exact .fail _

end Conform.Resolver

namespace Conform.Distributed

open Run Resolver Agreement

variable {core : Nat} {before last : ResolverState} {member inner top : SchemaId}
  {combinator : Combinator} {combinators : List Combinator} {chain : CombinatorChain}

/-- What is found behind a member, under the combinators of a chain. -/
def walkAt (last : ResolverState) (fuel : Nat) (chain : CombinatorChain) (member : SchemaId) :
    Except SchemaError (Option (CombinatorChain × List SchemaId)) :=
  (walkChain 0 (resolveWithin 0 fuel) fuel chain member last).1

/-- A distribution, and what has been found for it. -/
inductive Unfolds (core : Nat) (last : ResolverState) :
    Except SchemaError (Option SchemaId) →
    Except SchemaError (Option (CombinatorChain × List SchemaId)) → Prop
  | failed (error : SchemaError) : Unfolds core last (.error error) (.error error)
  | none : Unfolds core last (.ok none) (.ok none)
  | some {union : SchemaId} {tops members : List SchemaId} {chain : CombinatorChain}
      (node : last.arena.get? union = some (.union tops))
      (stacked : List.Forall₂ (Stacked core last · chain.toList.reverse ·) members tops) :
      Unfolds core last (.ok (some union)) (.ok (some (chain, members)))

/-- The way down from the outermost combinator leads to the member. -/
theorem walkAt_of_top {found : Except SchemaError (Option (CombinatorChain × List SchemaId))}
    (stacked : Stacked core last member combinators inner)
    (chained : chain.toList = (combinator :: combinators).reverse) {enough : Nat}
    (walks : ∀ steps budget, enough ≤ steps → enough ≤ budget →
      (walkChain 0 (resolveWithin 0 steps) budget ⟨combinator, []⟩ inner last).1 = found) :
    Converges (walkAt last · chain member) found := by
  have pushed : chain = combinators.foldl .push ⟨combinator, []⟩ := by
    apply CombinatorChain.ext
    rw [chained, CombinatorChain.toList_pushes, List.reverse_cons]
    rfl
  refine ⟨enough + 1, fun fuel above => ?_⟩
  obtain ⟨fuel, rfl⟩ : ∃ fewer, fuel = fewer + 1 := ⟨fuel - 1, by omega⟩
  rw [← walks (fuel + 1) (fuel + 1 + combinators.length) (by omega) (by omega),
    walkChain_stacked stacked 0 fuel, ← pushed]
  rfl

theorem walkAt_walks {budget : Nat} {found : Option (CombinatorChain × List SchemaId)}
    (stacked : Stacked core last member combinators inner)
    (chained : chain.toList = (combinator :: combinators).reverse)
    (walks : Walks last budget ⟨combinator, []⟩ inner found) :
    Converges (walkAt last · chain member) (.ok found) := by
  have again (steps wide : Nat) (above : budget + 1 ≤ steps) (above' : budget + 1 ≤ wide) :
      (walkChain 0 (resolveWithin 0 steps) wide ⟨combinator, []⟩ inner last).1 = .ok found := by
    obtain ⟨steps, rfl⟩ : ∃ fewer, steps = fewer + 1 := ⟨steps - 1, by omega⟩
    obtain ⟨more, rfl⟩ : ∃ more, wide = budget + more := ⟨wide - budget, by omega⟩
    rw [walks.lasts 0 steps more last (le_refl _)]
  exact walkAt_of_top stacked chained again

/-- What a known distribution stands for is found behind its member. -/
theorem walkAt_known {state : ResolverState} {union : SchemaId} (sound : state.Sound core)
    (grown : state ≤ last) (capped : Capped core state member combinators top)
    (chained : chain.toList = combinators.reverse)
    (known : state.distributions.find? top = some union) :
    ∃ found, Converges (walkAt last · chain member) found ∧ Unfolds core state (.ok (some union)) found := by
  obtain ⟨_, _, budget, found, members, tops, node, walks, union_node, towers⟩ :=
    (sound.distributions top union known).computed
  cases capped with
  | apply node' rest =>
      cases node.symm.trans node'
      refine ⟨_, walkAt_walks (rest.later grown) chained (Lasts.later walks grown),
        .some union_node (towers.imp fun _ _ tower => ?_)⟩
      simpa using Stacked.tower .base tower

theorem walkAt_undistributed (capped : Capped core last member combinators top)
    (chained : chain.toList = combinators.reverse) (undistributed : Undistributed last top) :
    Converges (walkAt last · chain member) (.ok none) := by
  cases capped with
  | apply node rest =>
      cases undistributed with
      | interface node' => cases node.symm.trans node'
      | mapped node' walks =>
          cases node.symm.trans node'
          exact walkAt_walks rest chained walks

theorem mapped_related (last : ResolverState) (sound : before.Sound core)
    (found : before.arena.get? top = some (.mapped combinator inner)) :
    Combinator.Related (World.same before last).ids combinator combinator ∧
      inner.index < before.arena.size := by
  have related : Node.Related (World.same before last).ids (.mapped combinator inner)
      (.mapped combinator inner) :=
    .refl fun child listed => ⟨rfl, children_issued sound found child listed⟩
  cases related with
  | plain plain => exact plain.elim
  | mapped combinators targets => exact ⟨combinators, targets.2⟩

/-- A distribution that fails does so on the way down, and again in the last state with any steps that are
no fewer. -/
theorem walkChain_fails {limit steps : Nat} {error : SchemaError}
    (node : before.arena.get? top = some (.mapped combinator inner))
    (answers : Answers core last (distributeWithin limit steps top) before (.error error)) :
    ∃ enough, ∀ steps budget, enough ≤ steps → enough ≤ budget →
      (walkChain 0 (resolveWithin 0 steps) budget ⟨combinator, []⟩ inner last).1 = .error error := by
  have grows := answers.grows (distributeWithin_stable limit steps top)
  have unknown : before.distributions.find? top = none := by
    cases known : before.distributions.find? top with
    | none => rfl
    | some union => cases answers.ok_eq (distributeWithin_known known limit steps).now
  cases steps with
  | zero =>
      have ran : distributeWithin limit 0 top before = (.error (.depthLimitExceeded limit), before) := by
        simp only [distributeWithin, bind_ok (read_apply _), unknown]
        rfl
      exact (answers.unlimited ran).elim
  | succ steps =>
      have distributes : Answers core last (distributeNode limit steps top) before (.error error) :=
        answers.congr (by simp only [distributeWithin, bind_ok (read_apply _), unknown])
      rcases (distributes.node node).split (walkChain_stable limit steps limit _ inner) with
        ⟨_, same, fails⟩ | ⟨found, middle, -, -, rest_answers⟩
      · cases same
        have linked : (World.same before last).Linked core := .same answers.sound grows.sound grows.grown
        obtain ⟨related, present⟩ := mapped_related last answers.sound node
        have chains : List.Forall₂ (Combinator.Related (World.same before last).ids)
            (CombinatorChain.mk combinator []).toList (CombinatorChain.mk combinator []).toList :=
          .cons related .nil
        exact ⟨max steps limit, fun steps' budget above above' =>
          fails.fails ((walkChain_agrees linked chains ⟨rfl, present⟩).weaken fun excuse => by omega)⟩
      · cases found with
        | none => cases rest_answers.ok_eq rfl
        | some found =>
            obtain ⟨chain, members⟩ := found
            obtain ⟨_, _, _, adds⟩ := distributeTail_adds top chain.toList members middle
            cases rest_answers.ok_eq adds

theorem walkAt_fails {limit steps : Nat} {error : SchemaError}
    (capped : Capped core before member combinators top) (chained : chain.toList = combinators.reverse)
    (answers : Answers core last (distributeWithin limit steps top) before (.error error)) :
    Converges (walkAt last · chain member) (.error error) := by
  have grows := answers.grows (distributeWithin_stable limit steps top)
  cases capped with
  | apply node rest =>
      obtain ⟨_, again⟩ := walkChain_fails node answers
      exact walkAt_of_top (rest.later grows.grown) chained again

/-- What is distributed depends on the combinators and the member alone. -/
theorem Answers.distributes {limit steps : Nat} {answer : Except SchemaError (Option SchemaId)}
    (capped : Capped core before member combinators top)
    (chained : chain.toList = combinators.reverse)
    (answers : Answers core last (distributeWithin limit steps top) before answer) :
    ∃ found, Converges (walkAt last · chain member) found ∧ Unfolds core last answer found := by
  have stable : Stable core (distributeWithin limit steps top) := distributeWithin_stable limit steps top
  have last_sound := (answers.grows stable).sound
  rcases answers.outcome stable with ⟨error, rfl⟩ | ⟨union, after, ran, grows, ends, rfl⟩
  · exact ⟨_, walkAt_fails capped chained answers, .failed error⟩
  have capped' := capped.later (le_trans grows.grown ends.grown)
  have distributes := (distributeWithin_meets limit steps answers.sound).answers _ _ ran
  cases union with
  | some union =>
      exact walkAt_known last_sound (le_refl _) capped' chained
        (ResolverState.distribution_later distributes ends.grown)
  | none =>
      have undistributed : Undistributed after top := by
        cases capped.later grows.grown with
        | apply node _ => exact distributes _ node rfl
      exact ⟨_, walkAt_undistributed capped' chained (undistributed.later ends.grown), .none⟩

/-- A sequence that begins with a distribution, with what is found behind the
member. -/
inductive Unfolding {β : Type} (core : Nat) (last : ResolverState) (chain : CombinatorChain)
    (member top : SchemaId) (next : Option SchemaId → Run β) (before : ResolverState)
    (result : Except SchemaError β) : Prop
  | failed (error : SchemaError) (same : result = .error error)
      (walks : Converges (walkAt last · chain member) (.error error)) :
      Unfolding core last chain member top next before result
  | none (middle : ResolverState) (grows : Grows core before middle)
      (walks : Converges (walkAt last · chain member) (.ok none))
      (onward : Answers core last (next none) middle result) :
      Unfolding core last chain member top next before result
  | some (middle : ResolverState) (union : SchemaId) (tops members : List SchemaId)
      (inner : CombinatorChain) (grows : Grows core before middle)
      (known : middle.distributions.find? top = some union)
      (node : middle.arena.get? union = some (.union tops))
      (stacked : List.Forall₂ (Stacked core middle · inner.toList.reverse ·) members tops)
      (walks : Converges (walkAt last · chain member) (.ok (some (inner, members))))
      (onward : Answers core last (next (some union)) middle result) :
      Unfolding core last chain member top next before result

theorem Answers.unfolds {β : Type} {limit steps : Nat} {next : Option SchemaId → Run β}
    {result : Except SchemaError β} (capped : Capped core before member combinators top)
    (chained : chain.toList = combinators.reverse) (stable : ∀ union, Stable core (next union))
    (answers : Answers core last (distributeWithin limit steps top >>= next) before result) :
    Unfolding core last chain member top next before result := by
  rcases answers.split (distributeWithin_stable limit steps top) with
    ⟨error, same, fails⟩ | ⟨distributed, middle, ran, grows, onward⟩
  · obtain ⟨found, walks, unfolds⟩ := fails.distributes capped chained
    cases unfolds
    exact .failed error same walks
  have ends := onward.grows (stable distributed)
  cases distributed with
  | none =>
      obtain ⟨found, walks, unfolds⟩ :=
        (Answers.of_ok answers.sound ran ends).distributes capped chained
      cases unfolds
      exact .none middle grows walks onward
  | some union =>
      -- The union is looked up in `middle`: it is there that what follows begins.
      have known : middle.distributions.find? top = some union :=
        (distributeWithin_meets limit steps answers.sound).answers _ _ ran
      obtain ⟨found, walks, unfolds⟩ :=
        walkAt_known grows.sound ends.grown (capped.later grows.grown) chained known
      cases unfolds with
      | some union_node towers =>
          exact .some middle union _ _ _ grows known union_node towers walks onward

end Conform.Distributed
