import Conform.Proofs.Validator.Monotone
import Conform.Proofs.Validator.Reachable

/-! Loose null mode.  A validator that lets `null` and `undefined` stand for each other accepts
whatever one accepts that keeps them apart.  The two share the registry and nothing else: each has a
history and a limit of its own, and they number the nodes differently that they add. -/

namespace Conform.Validator

open Run Resolver

variable {registry : Registry} {options looser : Options}
  {first second validator : Validator} {left right : ResolverState} {ids : SchemaId → SchemaId → Prop}
  {value : Value} {id other : SchemaId} {outcome : Outcome} {path symbol : String}

theorem Reachable.registry_le (reachable : Reachable registry options validator) :
    Arena.ofRegistry registry ≤ validator.state.arena :=
  ResolverState.arena_le reachable.advances.grown

/-- Nodes that are alike in two validators of one registry. -/
theorem accepted_loosely (reachable : Reachable registry options first)
    (reachable' : Reachable registry looser second) (loose : options.Looser looser)
    (alike : Arena.Alike first.state.arena second.state.arena id other)
    (accepted : (first.validateById value id).1 = .ok .success)
    (answered : (second.validateById value other).1 = .ok outcome) : outcome = .success := by
  have ran : check first.options value id first.state =
      (.ok .success, (first.validateById value id).2.state) := Prod.ext accepted rfl
  have ran' : check second.options value other second.state =
      (.ok outcome, (second.validateById value other).2.state) := Prod.ext answered rfl
  have stable : Stable (coreSize registry) (check first.options value id) := check_stable _ value id
  have stable' : Stable (coreSize registry) (check second.options value other) := check_stable _ value other
  -- What has been found is found again in the states that the two leave, without an addition.
  have grows := stable.grows reachable.sound ran
  have grows' := stable'.grows reachable'.sound ran'
  have yields := stable.again reachable.sound ran _ (le_refl _) grows.sound
  have yields' := stable'.again reachable'.sound ran' _ (le_refl _) grows'.sound
  have known := ResolverState.arena_le grows.grown
  have known' := ResolverState.arena_le grows'.grown
  have likens := Likens.alike (ResolverState.ofRegistry_sound registry) (le_trans reachable.registry_le known)
    (le_trans reachable'.registry_le known')
  rw [reachable.options_eq] at yields
  rw [reachable'.options_eq] at yields'
  exact checkLevels_relaxes (likens.settled grows.sound grows'.sound) (fun same => same ▸ .refl Eq.refl _)
    loose rfl (alike.later known known') yields _ yields'

theorem of_lookup_ok {state after : ResolverState} (looked : Resolver.lookup path symbol state = (.ok id, after)) :
    state.arena.symbol? path symbol = some id ∧ after = state := by
  simp only [Resolver.lookup, bind_ok (read_apply _)] at looked
  cases present : state.arena.hasModule path with
  | false =>
      rw [present] at looked
      cases looked
  | true =>
      simp only [present, if_true, bind_ok (read_apply _)] at looked
      cases named : state.arena.symbol? path symbol with
      | none =>
          rw [named] at looked
          cases looked
      | some found =>
          rw [named] at looked
          cases looked
          exact ⟨rfl, rfl⟩

theorem of_validate_ok (answered : (validator.validate value path symbol).1 = .ok outcome) :
    ∃ id, validator.state.arena.symbol? path symbol = some id ∧
      (validator.validateById value id).1 = .ok outcome := by
  have ran : (Resolver.lookup path symbol >>= check validator.options value) validator.state =
      (.ok outcome, (validator.validate value path symbol).2.state) := Prod.ext answered rfl
  obtain ⟨id, middle, looked, checked⟩ := of_bind_ok ran
  obtain ⟨named, rfl⟩ := of_lookup_ok looked
  exact ⟨id, named, congrArg Prod.fst checked⟩

/-- Loose null mode accepts a superset: what a validator in strict mode accepts, no validator of the
same registry rejects in loose mode, whatever the limit of either and whatever either was asked
before.  This holds of every symbol, and of every schema that both are given. -/
theorem loose_null_mode_accepts_more (registry : Registry) (limit otherLimit : Nat)
    {strict loose : Validator}
    (reachable : Reachable registry { strictNullChecks := true, maxDepth := limit } strict)
    (reachable' : Reachable registry { strictNullChecks := false, maxDepth := otherLimit } loose)
    (value : Value) (outcome : Outcome) :
    (∀ path symbol, (strict.validate value path symbol).1 = .ok .success →
      (loose.validate value path symbol).1 = .ok outcome → outcome = .success) ∧
    ∀ schema strictLater looseLater, Leads (strict.intern schema).2 strictLater →
      Leads (loose.intern schema).2 looseLater →
      (strictLater.validateById value (strict.intern schema).1).1 = .ok .success →
      (looseLater.validateById value (loose.intern schema).1).1 = .ok outcome → outcome = .success := by
  have looser : Options.Looser ⟨true, limit⟩ ⟨false, otherLimit⟩ := fun _ => rfl
  constructor
  · intro path symbol accepted answered
    obtain ⟨id, named, accepted⟩ := of_validate_ok accepted
    obtain ⟨other, named', answered⟩ := of_validate_ok answered
    have likens := Likens.alike (ResolverState.ofRegistry_sound registry) reachable.registry_le
      reachable'.registry_le
    exact accepted_loosely reachable reachable' looser (likens.symbols named named') accepted answered
  · intro schema strictLater looseLater leads leads' accepted answered
    have interned := reachable.step (.intern strict schema)
    have interned' := reachable'.step (.intern loose schema)
    have alike := (Arena.Alike.interned strict.state.arena loose.state.arena schema).later
      (ResolverState.arena_le (leads.advances interned.sound).grown)
      (ResolverState.arena_le (leads'.advances interned'.sound).grown)
    exact accepted_loosely (interned.leads leads) (interned'.leads leads') looser alike accepted answered

/-- An optional `null` beside a required `undefined`. -/
def blank : Registry :=
  Registry.empty.insert "m" "A"
    (.interface [⟨0, "x", true, .literal .null⟩, ⟨1, "y", false, .any⟩] none [])

def blankValue : Value :=
  .object (.ofList [("x", .null), ("y", .null)])

/-- The strict validator checks `x`, the loose one leaves it out; the loose one was asked before. -/
theorem loose_null_mode_accepts_more_blank :
    let strict := ofRegistry blank { strictNullChecks := true, maxDepth := 4 }
    let loose := ((ofRegistry blank { strictNullChecks := false, maxDepth := 5 }).validate .null "m" "A").2
    ((strict.validate blankValue "m" "A").1 = .ok .success ∧
      (loose.validate blankValue "m" "A").1 = .ok .success ∧
      ∀ outcome, (loose.validate blankValue "m" "A").1 = .ok outcome → outcome = .success) ∧
    ∀ outcome, ((loose.intern (.literal .undefined)).2.validateById .undefined
      (loose.intern (.literal .undefined)).1).1 = .ok outcome → outcome = .success := by
  intro strict loose
  have reachable : Reachable blank { strictNullChecks := true, maxDepth := 4 } strict := .refl
  have reachable' : Reachable blank { strictNullChecks := false, maxDepth := 5 } loose :=
    .single (.validate _ .null "m" "A")
  refine ⟨⟨rfl, rfl, fun outcome answered => ?_⟩, fun outcome answered => ?_⟩
  · exact (loose_null_mode_accepts_more blank 4 5 reachable reachable' blankValue outcome).1 "m" "A" rfl
      answered
  · exact (loose_null_mode_accepts_more blank 4 5 reachable reachable' .undefined outcome).2
      (.literal .undefined) _ _ .refl .refl rfl answered

/-- Loose null mode accepts more: `null` for a required `undefined`. -/
example :
    let schema : Schema := .literal .undefined
    let strict := ofRegistry .empty { strictNullChecks := true }
    let loose := ofRegistry .empty { strictNullChecks := false }
    ((strict.intern schema).2.validateById .null (strict.intern schema).1).1 =
        .ok (.failure .notTheLiteral) ∧
      ((loose.intern schema).2.validateById .null (loose.intern schema).1).1 = .ok .success :=
  ⟨rfl, rfl⟩

end Conform.Validator
