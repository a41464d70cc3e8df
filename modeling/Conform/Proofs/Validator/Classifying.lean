import Conform.Proofs.Distribution.Descending
import Conform.Proofs.Validator.Reachable

/-! The two walks down a chain of combinators.  Whether a combinator is distributed, has a shape or
is in error is decided in two places, and they decide alike. -/

namespace Conform.Validator

open Run Resolver Distributed

variable {registry : Registry} {options : Options} {one other : Validator}
  {id target : SchemaId} {combinator : Combinator}

/-- What distributing and flattening a combinator come to.  The chain of combinators is read in
`known`, or in `reading`. -/
structure Classified (known reading : ResolverState) (id : SchemaId)
    (distributed : Except SchemaError (Option SchemaId)) (flattened : Except SchemaError Shape) :
    Prop where
  /-- Over a union there is no shape: the innermost combinator has the wrong target. -/
  union : ∀ union, distributed = .ok (some union) → ∃ combinators innermost members,
    Spans known id (combinators ++ [innermost]) members ∧
      flattened = .error (.invalidCombinatorTarget innermost.kind .union)
  error : ∀ error, distributed = .error error → flattened = .error error
  shape : ∀ shape, flattened = .ok shape → distributed = .ok none
  /-- What is not distributed is not over a union, whatever flattening it comes to. -/
  apart : distributed = .ok none → ∀ combinators members, ¬ Spans reading id combinators members

/-- Distributing and flattening classify every combinator alike, one after the other in any
order, unless one of them exceeds the limit. -/
theorem combinator_walks_agree (reachable : Reachable registry options one)
    (readable : Reachable registry options other)
    (line : other.Leads (one.distribute id).2 ∨ (one.distribute id).2.Leads other)
    (node : one.state.arena.get? id = some (.mapped combinator target))
    (node' : other.state.arena.get? id = some (.mapped combinator target))
    (unlimited : ¬ IsLimited (one.distribute id).1) (unlimited' : ¬ IsLimited (other.flatten id).1) :
    Classified (one.distribute id).2.state other.state id (one.distribute id).1 (other.flatten id).1 := by
  have called := reachable.step (.distribute one id)
  obtain ⟨last, sound, grown, grown'⟩ : ∃ last, ResolverState.Sound (coreSize registry) last ∧
      (one.distribute id).2.state ≤ last ∧ other.state ≤ last := by
    rcases line with leads | leads
    · exact ⟨_, called.sound, le_refl _, (leads.advances readable.sound).grown⟩
    · exact ⟨_, readable.sound, (leads.advances called.sound).grown, le_refl _⟩
  have flattens {passed : List SchemaId} {error : SchemaError}
      (descends : Descends last combinator target passed error) : (other.flatten id).1 = .error error :=
    descends.flattens readable.sound sound grown' node' unlimited'
  have here : (one.distribute id).2.state.arena.get? id = some (.mapped combinator target) :=
    ResolverState.get?_later node ((Step.distribute one id).advances reachable.sound).grown
  have meets : Meets (Resolver.distribute one.options.maxDepth id) one.state
      (Grows (coreSize registry) one.state) fun union after => Distributes after id union :=
    distributeWithin_meets _ _ reachable.sound
  cases distributed : (one.distribute id).1 with
  | error error =>
      rw [distributed] at unlimited
      have ran : distributeWithin one.options.maxDepth one.options.maxDepth id one.state =
          (.error error, (one.distribute id).2.state) := Prod.ext distributed rfl
      obtain ⟨passed, descends⟩ := descends_of_distribute reachable.sound sound node ran grown
        fun limit limited => unlimited ⟨limit, congrArg _ limited⟩
      have failed := flattens descends
      exact ⟨nofun, fun _ same => by cases same; exact failed,
        fun _ flat => (nomatch failed.symm.trans flat), nofun⟩
  | ok union =>
      have known := meets.answers union (one.distribute id).2.state (Prod.ext distributed rfl)
      cases union with
      | some union =>
          obtain ⟨_, _, _, chain, members, _, found, walks, -⟩ :=
            (called.sound.distributions id union known).computed
          cases here.symm.trans found
          obtain ⟨passed, descends⟩ := descends_of_walks sound (walks.later grown)
          obtain ⟨combinators, spans⟩ := spans_of_walks called.sound here walks
          have failed := flattens descends
          exact ⟨fun _ _ => ⟨combinators, _, members, spans, failed⟩, nofun,
            fun _ flat => (nomatch failed.symm.trans flat), nofun⟩
      | none =>
          refine ⟨nofun, nofun, fun _ _ => rfl, fun _ combinators members spans => ?_⟩
          cases known _ here rfl with
          | interface plain => cases here.symm.trans plain
          | mapped found walks =>
              cases here.symm.trans found
              have there := ResolverState.get?_later here grown
              obtain ⟨_, none, -⟩ := spans.walks readable.sound sound grown' there rfl (walks.later grown)
              cases none

/-- Combinators over each other and, through references, over a union. -/
def coalition : Registry :=
  ((Registry.empty.insert "m" "Inner" (.without (.reference "m/Some") ["b"])).insert "m" "Outer"
    (.optional (.reference "m/Inner"))).insert "m" "Some"
      (.union (Branch.numbered [.interface [⟨0, "a", false, .string⟩] none [],
        .interface [⟨0, "b", false, .string⟩] none []]))

theorem combinator_walks_agree_coalition :
    let validator := Validator.ofRegistry coalition { maxDepth := 8 }
    (validator.distribute ⟨5⟩).1 = .ok (some ⟨15⟩) ∧
      (validator.flatten ⟨5⟩).1 = .error (.invalidCombinatorTarget .without .union) ∧
      Classified (validator.distribute ⟨5⟩).2.state validator.state ⟨5⟩
        (validator.distribute ⟨5⟩).1 (validator.flatten ⟨5⟩).1 := by
  intro validator
  have distributed : (validator.distribute ⟨5⟩).1 = .ok (some ⟨15⟩) := rfl
  have flattened : (validator.flatten ⟨5⟩).1 = .error (.invalidCombinatorTarget .without .union) := rfl
  have reachable : Reachable coalition { maxDepth := 8 } validator := .refl
  have unlimited : ¬ IsLimited (validator.distribute ⟨5⟩).1 := by simp [IsLimited, distributed]
  have unlimited' : ¬ IsLimited (validator.flatten ⟨5⟩).1 := by simp [IsLimited, flattened]
  exact ⟨distributed, flattened, combinator_walks_agree reachable reachable
    (.inl (.single (.distribute validator ⟨5⟩))) rfl rfl unlimited unlimited'⟩

end Conform.Validator
