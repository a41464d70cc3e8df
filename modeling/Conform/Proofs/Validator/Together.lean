import Conform.Proofs.Validator.Transparency
import Conform.Proofs.Validator.Yields

/-! Several calls on one state.  Those that have an answer are repeated together in a later
state, where nothing is added any more.  So what a call comes to can be told from what its
parts come to. -/

namespace Conform.Validator

open Run Resolver

variable {core limit : Nat} {registry : Registry} {options : Options}
  {validator later judge : Validator} {value otherValue : Value} {id other otherId : SchemaId}
  {outcome otherOutcome : Outcome} {shape : Shape} {state left right after : ResolverState}
  {unlimited : Prop}

theorem check_present (ran : check options value id left = (.ok outcome, after)) :
    id.index < left.arena.size := by
  unfold check checkLevels at ran
  cases limit : options.maxDepth with
  | zero =>
      rw [limit] at ran
      cases ran
  | succ limit =>
      rw [limit] at ran
      obtain ⟨node, _, reads, -⟩ := of_bind_ok ran
      exact Arena.index_lt_size (of_node_ok reads).1

/-- What is found in a state is found, without an addition, beyond any later one. -/
theorem check_again (sound : left.Sound core) (sound' : right.Sound core) (grown : left ≤ right)
    (ran : check options value id left = (.ok outcome, after)) :
    ∃ last, right ≤ last ∧ last.Sound core ∧ Yields (check options value id) last outcome := by
  have same : (check options value id right).1 = .ok outcome := by
    rcases Agreement.check_outcome sound sound' grown (check_present ran) with ⟨limit, limited⟩ | same
    · rw [ran] at limited
      cases limited
    · rw [← same, ran]
  have stable := check_stable options value id right sound'
  exact ⟨(check options value id right).2, stable.leaves.grown, stable.leaves.sound,
    stable.answers outcome _ (Prod.ext same rfl) _ (le_refl _) stable.leaves.sound⟩

theorem validateById_ok (ran : (validator.validateById value id).1 = .ok outcome) :
    check validator.options value id validator.state =
      (.ok outcome, (validator.validateById value id).2.state) :=
  Prod.ext ran rfl

theorem Reachable.validateById_eq (reachable : Reachable registry options validator) (value : Value)
    (id : SchemaId) : (validator.validateById value id).1 = (check options value id validator.state).1 := by
  rw [← reachable.options_eq]
  rfl

theorem Reachable.check_ok (reachable : Reachable registry options validator)
    (ran : (validator.validateById value id).1 = .ok outcome) :
    check options value id validator.state =
      (.ok outcome, (validator.validateById value id).2.state) := by
  rw [← reachable.options_eq]
  exact validateById_ok ran

/-- A call is repeated, without an addition, wherever it has led to. -/
theorem Reachable.yields_later (reachable : Reachable registry options validator)
    (ran : (validator.validateById value id).1 = .ok outcome)
    (leads : (validator.validateById value id).2.Leads later) :
    Yields (check options value id) later.state outcome := by
  have called := reachable.step (.validateById validator value id)
  have advances := leads.advances called.sound
  have stable : Stable (coreSize registry) (check options value id) := check_stable options value id
  exact stable.again reachable.sound (reachable.check_ok ran) later.state advances.grown advances.sound

/-- A call, and one on a validator that it can lead to, are repeated together. -/
theorem yield_together (reachable : Reachable registry options validator)
    (leads : validator.Leads later) (ran : (validator.validateById value id).1 = .ok outcome)
    (ran' : (later.validateById otherValue other).1 = .ok otherOutcome) :
    ∃ state, later.state ≤ state ∧ state.Sound (coreSize registry) ∧
      Yields (check options value id) state outcome ∧
      Yields (check options otherValue other) state otherOutcome := by
  have sound := reachable.sound
  have advances := leads.advances sound
  have second := (reachable.leads leads).check_ok ran'
  have stable : Stable (coreSize registry) (check options otherValue other) :=
    check_stable options otherValue other
  have grows := stable.grows advances.sound second
  obtain ⟨last, grown, last_sound, yields⟩ :=
    check_again sound grows.sound (le_trans advances.grown grows.grown) (reachable.check_ok ran)
  exact ⟨last, le_trans grows.grown grown, last_sound, yields,
    stable.again advances.sound second last grown last_sound⟩

/-- Two calls, whichever of them comes first, are repeated together. -/
theorem yield_along {one other : Validator} (reachable : Reachable registry options one)
    (readable : Reachable registry options other) (line : one.Leads other ∨ other.Leads one)
    (ran : (one.validateById value id).1 = .ok outcome)
    (ran' : (other.validateById otherValue otherId).1 = .ok otherOutcome) :
    ∃ state, one.state ≤ state ∧ other.state ≤ state ∧ state.Sound (coreSize registry) ∧
      Yields (check options value id) state outcome ∧
      Yields (check options otherValue otherId) state otherOutcome := by
  rcases line with leads | leads
  · obtain ⟨state, grown, sound, yields, yields'⟩ := yield_together reachable leads ran ran'
    exact ⟨state, le_trans (leads.advances reachable.sound).grown grown, grown, sound, yields, yields'⟩
  · obtain ⟨state, grown, sound, yields', yields⟩ := yield_together readable leads ran' ran
    exact ⟨state, grown, le_trans (leads.advances readable.sound).grown grown, sound, yields, yields'⟩

theorem flatten_ok (ran : (validator.flatten id).1 = .ok shape) :
    Resolver.flatten validator.options.maxDepth id validator.state =
      (.ok shape, (validator.flatten id).2.state) :=
  Prod.ext ran rfl

/-- Only a node that is there has a shape. -/
theorem flatten_present (sound : state.Sound core)
    (ran : Resolver.flatten limit id state = (.ok shape, after)) : id.index < state.arena.size := by
  cases known : state.shapes.find? id with
  | some earlier => exact shape_present sound known
  | none =>
      have free : ¬ ([] : List SchemaId).contains id = true := by simp
      cases limit with
      | zero => cases (Agreement.flattenWithin_none known free).symm.trans ran
      | succ limit =>
          have computed := (Agreement.flattenWithin_unknown known free).symm.trans ran
          obtain ⟨made, middle, flattens, -⟩ := of_bind_ok computed
          obtain ⟨node, found⟩ := exists_node_of_flattenNode flattens
          exact Arena.index_lt_size found

/-- Beyond any later state some state knows all shapes that the validator would answer, one by
one. -/
theorem exists_known (reachable : Reachable registry options validator)
    (grown : validator.state ≤ after) (sound : after.Sound (coreSize registry))
    (answers : List (SchemaId × Shape))
    (answered : ∀ answer ∈ answers, (validator.flatten answer.1).1 = .ok answer.2) :
    ∃ state, after ≤ state ∧ state.Sound (coreSize registry) ∧
      ∀ answer ∈ answers, state.shapes.find? answer.1 = some answer.2 := by
  induction answers with
  | nil => exact ⟨after, le_refl _, sound, by simp⟩
  | cons answer rest ih =>
      obtain ⟨state, beyond, sound, known⟩ := ih fun other listed => answered other (by simp [listed])
      have ran := flatten_ok (answered answer (by simp))
      have again : (Resolver.flatten validator.options.maxDepth answer.1 state).1 = .ok answer.2 :=
        Agreement.flatten_later reachable.sound sound (le_trans grown beyond)
          (flatten_present reachable.sound ran) ran
      have meets : Meets (Resolver.flatten validator.options.maxDepth answer.1) state _ _ :=
        flattenWithin_meets _ _ [] answer.1 state sound
      cases ran' : Resolver.flatten validator.options.maxDepth answer.1 state with
      | mk outcome last =>
          rw [ran'] at again
          cases again
          have grown' := (meets.always_ok ran').grown
          exact ⟨last, le_trans beyond grown', (meets.always_ok ran').sound,
            List.forall_mem_cons.mpr ⟨(meets.answers _ _ ran').1, fun other listed =>
              ResolverState.shape_later (known other listed) grown'⟩⟩

/-- The types of a shape are there already when it is computed. -/
theorem flattened_issued (reachable : Reachable registry options validator)
    (flattens : (validator.flatten id).1 = .ok shape) : ∀ type ∈ shape.types, validator.Issued type := by
  intro type listed
  have present := flatten_present reachable.sound (flatten_ok flattens)
  obtain ⟨state, -, sound, known⟩ :=
    exists_known reachable (le_refl _) reachable.sound [(id, shape)] (by simp [flattens])
  have within := shape_within sound (known (id, shape) (by simp)) type listed
  exact Within.index_lt within reachable.sound.core_le (Nat.le_of_lt present)

/-- A state in which a call is repeated, and the validator that judges its parts.  Where the state
goes beyond that of the judge, the judge does not reach the limit. -/
structure Replays (core : Nat) (options : Options) (judge : Validator) (value : Value) (id : SchemaId)
    (outcome : Outcome) (unlimited : Prop) (state : ResolverState) : Prop where
  grown : judge.state ≤ state
  sound : state.Sound core
  yields : Yields (check options value id) state outcome
  known : state = judge.state ∨ unlimited

/-- A call is repeated for a validator that has been through it, and for one that has only been
through what came before it. -/
theorem Reachable.replays (reachable : Reachable registry options validator)
    (answered : (validator.validateById value id).1 = .ok outcome)
    (tells : (validator.validateById value id).2.Leads judge ∨ validator.Leads judge ∧ unlimited) :
    validator.Leads judge ∧
      ∃ state, Replays (coreSize registry) options judge value id outcome unlimited state := by
  rcases tells with called | ⟨leads, unlimited⟩
  · have leads : validator.Leads judge := .head (.validateById validator value id) called
    have advances := leads.advances reachable.sound
    exact ⟨leads, judge.state, le_refl _, advances.sound, reachable.yields_later answered called, .inl rfl⟩
  · have advances := leads.advances reachable.sound
    obtain ⟨state, grown, sound, yields⟩ :=
      check_again reachable.sound advances.sound advances.grown (reachable.check_ok answered)
    exact ⟨leads, state, grown, sound, yields, .inr unlimited⟩

namespace Replays

variable {part : Value} {type : SchemaId} (replays : Replays (coreSize registry) options judge value id
  outcome unlimited state) (reachable : Reachable registry options judge) (issued : judge.Issued type)

include replays reachable issued

/-- What a part comes to in the repeated call is what it comes to for the judge. -/
theorem answer (within : unlimited → ¬ IsLimited (judge.validateById part type).1) :
    (judge.validateById part type).1 = (check options part type state).1 := by
  have called := reachable.validateById_eq part type
  rcases replays.known with rfl | unlimited
  · exact called
  · rcases Agreement.check_outcome reachable.sound replays.sound replays.grown issued with limited | same
    · rw [← called] at limited
      exact (within unlimited limited).elim
    · exact called.trans same

theorem flattens (within : unlimited → ¬ IsLimited (judge.flatten type).1) :
    (judge.flatten type).1 = (Resolver.flatten options.maxDepth type state).1 := by
  have called : (judge.flatten type).1 = (Resolver.flatten options.maxDepth type judge.state).1 := by
    rw [← reachable.options_eq]
    rfl
  rcases replays.known with rfl | unlimited
  · exact called
  · rcases Agreement.flatten_outcome reachable.sound replays.sound replays.grown issued with limited | same
    · rw [called] at within
      exact (within unlimited limited).elim
    · exact called.trans same

end Replays

end Conform.Validator
