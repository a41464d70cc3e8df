import Conform.Proofs.Distribution.Checking
import Conform.Proofs.Distribution.Spanning

/-! Distribution keeps the meaning of combinators over a union.  The union that is
distributed has the combinators on each member, in their order, and a value is
checked against it as against a union built by hand from the same combinators. -/

namespace Conform.Validator

open Run Resolver Agreement Distributed

variable {core : Nat} {registry : Registry} {options : Options} {validator one other : Validator}
  {start : ResolverState} {id union : SchemaId} {combinators : List Combinator} {members : List SchemaId}

theorem exists_chain (applied : combinators ≠ []) :
    ∃ chain : CombinatorChain, chain.toList = combinators.reverse := by
  cases reversed : combinators.reverse with
  | nil => exact (applied (List.reverse_eq_nil_iff.mp reversed)).elim
  | cons innermost outer => exact ⟨⟨innermost, outer⟩, rfl⟩

/-- A check of a chain that is distributed comes to what the combinators and the
members determine. -/
theorem check_spanned {before last : ResolverState} {chain : CombinatorChain} {value : Value}
    {answer : Except SchemaError Outcome} (spans : Spans start id combinators members)
    (sound : start.Sound core) (grown : start ≤ before)
    (distributes : (Resolver.distribute options.maxDepth id start).1 = .ok (some union))
    (chained : chain.toList = combinators.reverse)
    (answers : Answers core last (check options value id) before answer) :
    Converges (unionAt last options value.height value · chain members) answer := by
  obtain ⟨combinator, target, node⟩ := spans.mapped
  have present := Arena.index_lt_size node
  obtain ⟨distributed, middle, ran, same⟩ :=
    distribute_later sound answers.sound grown present (Prod.ext distributes rfl)
  obtain ⟨other, rfl⟩ := Option.isSome_iff_exists.mp same
  have grows := (distributeWithin_stable _ _ id).grows answers.sound ran
  have known := (distributeWithin_meets _ _ answers.sound).answers _ _ ran
  obtain ⟨tops, found, stacked⟩ := spans.distributed sound grows.sound (le_trans grown grows.grown) known
  have node' := ResolverState.get?_later node grown
  have each (steps : Nat) (answers : Answers core last
      (checkWithin options (checkLevels options value.height) value steps id) before answer) :
      Converges (unionAt last options value.height value · chain members) answer := by
    cases steps with
    | zero => exact (answers.unlimited rfl).elim
    | succ steps =>
        exact ((answers.congr (checkWithin_like node' rfl)).onward ran grows.sound).checks found stacked
          chained
  exact each options.maxDepth answers

/-- Whatever a check of the node answers from some state on is what the evaluation comes to. -/
def ComesTo (core : Nat) (options : Options) (value : Value) (id : SchemaId) (state : ResolverState)
    (evaluate : ResolverState → Nat → Except SchemaError Outcome) : Prop :=
  ∀ before last answer, state ≤ before → Answers core last (check options value id) before answer →
    Converges (evaluate last) answer

/-- Checks that come to the same have the same outcome. -/
theorem ComesTo.same {left right : ResolverState} {value : Value} {first second : SchemaId}
    {evaluate : ResolverState → Nat → Except SchemaError Outcome}
    (comes : ComesTo core options value first left evaluate)
    (comes' : ComesTo core options value second right evaluate) (sound : left.Sound core)
    (sound' : right.Sound core) (grown : left ≤ right) (present : first.index < left.arena.size) :
    SameUnlessLimited (check options value first left).1 (check options value second right).1 := by
  by_cases limited : IsLimited (check options value first left).1
  · exact .inl limited
  by_cases limited' : IsLimited (check options value second right).1
  · exact .inr (.inl limited')
  -- The first check is repeated where the second one ends, so both end before one state.
  have grows := (check_stable options value second right sound').leaves
  have grows' := (check_stable options value first _ grows.sound).leaves
  have again := (check_outcome sound grows.sound (le_trans grown grows.grown) present).resolve_left limited
  have answers : Answers core _ (check options value first) (check options value second right).2 _ :=
    ⟨grows.sound, again.symm, .refl grows'.sound, limited⟩
  have answers' : Answers core _ (check options value second) right _ := ⟨sound', rfl, grows', limited'⟩
  exact .inr (.inr ((comes _ _ _ (le_trans grown grows.grown) answers).unique
    (comes' _ _ _ (le_refl _) answers')))

/-- Distribution over a union: the union that a chain of combinators stands for has
the chain on each member, and a value is checked against the chain as against a
union that is built by hand from the same combinators on the members.  What is built
by hand is added to the validator: no registry node depends on it, so no error about
a cycle names it. -/
theorem distribution_keeps_meaning (reachable : Reachable registry options validator)
    (spans : Spans validator.state id combinators members)
    (distributes : (validator.distribute id).1 = .ok (some union)) :
    (∃ tops, (validator.distribute id).2.state.arena.get? union = some (.union tops) ∧
      List.Forall₂ (Stacked (coreSize registry) (validator.distribute id).2.state · combinators ·)
        members tops) ∧
    ∀ one other hand heads, validator.Leads one → validator.Leads other →
      one.Leads other ∨ other.Leads one → other.state.arena.get? hand = some (.union heads) →
      List.Forall₂ (Stacked (coreSize registry) other.state · combinators ·) members heads →
      ∀ value, SameUnlessLimited (one.validateById value id).1 (other.validateById value hand).1 := by
  have sound := reachable.sound
  refine ⟨?_, fun one other hand heads leads leads' along found stacked value => ?_⟩
  · have stable := distributeWithin_stable validator.options.maxDepth validator.options.maxDepth id
      validator.state sound
    have ran : Resolver.distribute validator.options.maxDepth id validator.state =
        (.ok (some union), (validator.distribute id).2.state) := Prod.ext distributes rfl
    exact spans.distributed sound stable.leaves.sound stable.leaves.grown
      ((distributeWithin_meets _ _ sound).answers _ _ ran)
  obtain ⟨chain, chained⟩ := exists_chain spans.applied
  have advances := leads.advances sound
  have advances' := leads'.advances sound
  have given : (Resolver.distribute options.maxDepth id validator.state).1 = .ok (some union) := by
    rw [← reachable.options_eq]
    exact distributes
  have chain_comes : ComesTo (coreSize registry) options value id one.state
      fun last fuel => unionAt last options value.height value fuel chain members :=
    fun before last answer grown answers =>
      check_spanned spans sound (le_trans advances.grown grown) given chained answers
  have hand_comes : ComesTo (coreSize registry) options value hand other.state
      fun last fuel => unionAt last options value.height value fuel chain members :=
    fun before last answer grown answers => answers.checks (ResolverState.get?_later found grown)
      (stacked.imp fun _ _ stack => stack.later grown) chained
  obtain ⟨_, _, node⟩ := spans.mapped
  have present := Arena.index_lt_size (ResolverState.get?_later node advances.grown)
  have same : (one.validateById value id).1 = (check options value id one.state).1 := by
    rw [← reachable.options_eq, ← advances.options]
    rfl
  have same' : (other.validateById value hand).1 = (check options value hand other.state).1 := by
    rw [← reachable.options_eq, ← advances'.options]
    rfl
  rw [same, same']
  rcases along with along | along
  · exact chain_comes.same hand_comes advances.sound advances'.sound
      (along.advances advances.sound).grown present
  · exact (hand_comes.same chain_comes advances'.sound advances.sound
      (along.advances advances'.sound).grown (Arena.index_lt_size found)).symm

/-- Two combinators over a union of two interfaces. -/
def alternatives : Validator :=
  ((Validator.ofRegistry .empty { maxDepth := 8 }).intern (.optional (.without (.union
    (Branch.numbered [.interface [⟨0, "a", false, .string⟩, ⟨1, "b", false, .string⟩] none [],
      .interface [⟨0, "c", false, .string⟩] none []])) ["b"]))).2

/-- The same two combinators on each of the interfaces, and the union of that. -/
def spelled : Validator :=
  [.mapped (.without ["b"]) ⟨4⟩, .mapped .optional ⟨10⟩, .mapped (.without ["b"]) ⟨6⟩,
    .mapped .optional ⟨12⟩, .union [⟨11⟩, ⟨13⟩]].foldl (fun validator node => (validator.alloc node).2)
      alternatives

theorem alternatives_leads : alternatives.Leads spelled := by
  refine Relation.ReflTransGen.refl.tail (.alloc _ (.mapped (.without ["b"]) ⟨4⟩) ?_)
    |>.tail (.alloc _ (.mapped .optional ⟨10⟩) ?_) |>.tail (.alloc _ (.mapped (.without ["b"]) ⟨6⟩) ?_)
    |>.tail (.alloc _ (.mapped .optional ⟨12⟩) ?_) |>.tail (.alloc _ (.union [⟨11⟩, ⟨13⟩]) ?_) <;> decide

theorem alternatives_spans :
    Spans alternatives.state ⟨9⟩ [.optional, .without ["b"]] [⟨4⟩, ⟨6⟩] :=
  have resolves : (Resolver.resolve 1 ⟨8⟩ alternatives.state).1 = .ok ⟨8⟩ := rfl
  have resolves' : (Resolver.resolve 1 ⟨7⟩ alternatives.state).1 = .ok ⟨7⟩ := rfl
  .more rfl (Prod.ext resolves rfl) (.last rfl (Prod.ext resolves' rfl) rfl)

theorem distribution_keeps_meaning_alternatives :
    (alternatives.distribute ⟨9⟩).1 = .ok (some ⟨14⟩) ∧
      (∃ tops, (alternatives.distribute ⟨9⟩).2.state.arena.get? ⟨14⟩ = some (.union tops) ∧
        List.Forall₂ (Stacked (coreSize .empty) (alternatives.distribute ⟨9⟩).2.state ·
          [.optional, .without ["b"]] ·) [⟨4⟩, ⟨6⟩] tops) ∧
      ∀ value, SameUnlessLimited (alternatives.validateById value ⟨9⟩).1
        (spelled.validateById value ⟨14⟩).1 := by
  have reachable : Reachable .empty { maxDepth := 8 } alternatives := .single (.intern _ _)
  have distributes : (alternatives.distribute ⟨9⟩).1 = .ok (some ⟨14⟩) := rfl
  obtain ⟨distributed, meaning⟩ := distribution_keeps_meaning reachable alternatives_spans distributes
  refine ⟨distributes, distributed, meaning alternatives spelled ⟨14⟩ [⟨11⟩, ⟨13⟩] .refl alternatives_leads
    (.inl alternatives_leads) rfl ?_⟩
  exact .cons (.apply rfl (by decide) (.apply rfl (by decide) .base))
    (.cons (.apply rfl (by decide) (.apply rfl (by decide) .base)) .nil)

end Conform.Validator
