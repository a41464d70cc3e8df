import Conform.Proofs.Resolver.Chains
import Conform.Proofs.Validator.Searching

/-! References.  A chain of them is resolved as far as it leads, and fails where it is broken
off or closes a cycle. -/

namespace Conform.Validator

open Run Resolver

variable {core : Nat} {registry : Registry} {options : Options} {validator later : Validator}
  {id resolved : SchemaId}

theorem resolve_settled (positive : 0 < later.options.maxDepth)
    (resolves : Resolves later.state id resolved) : later.resolve id = (.ok resolved, later) := by
  obtain ⟨limit, same⟩ := Nat.exists_eq_add_one.mpr positive
  have ran := (resolves.lasts later.options.maxDepth limit).now
  rw [← same] at ran
  simp only [Validator.resolve, perform, Resolver.resolve, ran]

/-- Without indexed accesses resolution answers what the chain comes to, and adds nothing. -/
theorem resolve_chain (positive : 0 < validator.options.maxDepth)
    (free : validator.state.arena.AccessFree id) :
    ∃ answer, validator.resolve id = (answer, validator) ∧ validator.state.arena.ChainEnds id answer := by
  obtain ⟨limit, same⟩ := Nat.exists_eq_add_one.mpr positive
  obtain ⟨answer, ran, ends⟩ := resolveWithin_chain free validator.options.maxDepth limit
  rw [← same] at ran
  exact ⟨answer, by simp only [Validator.resolve, perform, Resolver.resolve, ran], ends⟩

/-- What the validator itself resolves an identity to. -/
def ResolvesTo (validator : Validator) (id resolved : SchemaId) : Prop :=
  (validator.resolve id).1 = .ok resolved

theorem resolvesTo_iff (positive : 0 < validator.options.maxDepth)
    (free : validator.state.arena.AccessFree id) :
    validator.ResolvesTo id resolved ↔ validator.state.arena.ChainEnds id (.ok resolved) := by
  obtain ⟨answer, ran, ends⟩ := resolve_chain positive free
  rw [ResolvesTo, ran]
  constructor
  · intro same
    rwa [← same]
  · exact ends.unique

/-- What is answered is concrete, and resolves to itself from then on. -/
theorem resolve_again (positive : 0 < validator.options.maxDepth) (sound : validator.state.Sound core)
    (answer : (validator.resolve id).1 = .ok resolved) :
    (∃ node, (validator.resolve id).2.state.arena.get? resolved = some node ∧ node.IsConcrete) ∧
      ∀ later, (validator.resolve id).2.Leads later → later.resolve resolved = (.ok resolved, later) := by
  have ran : resolveWithin validator.options.maxDepth validator.options.maxDepth id validator.state =
      (.ok resolved, (validator.resolve id).2.state) := Prod.ext answer rfl
  have meets := resolveWithin_meets validator.options.maxDepth validator.options.maxDepth id
    validator.state sound
  obtain ⟨-, ⟨node, found, concrete, -⟩, -⟩ := meets.answers _ _ ran
  refine ⟨⟨node, found, concrete⟩, ?_⟩
  intro later leads
  have advances := leads.advances (meets.always_ok ran).sound
  have positive' : 0 < later.options.maxDepth := by
    rw [advances.options]
    exact positive
  exact resolve_settled positive'
    (resolves_concrete (ResolverState.get?_later found advances.grown) concrete)

/-- A chain of references without indexed accesses is resolved to what it comes to, however long
it is, and it closes a cycle exactly if it is infinite.  Whatever is resolved stays as it is. -/
theorem resolution_is_exact (reachable : Reachable registry options validator)
    (positive : 0 < options.maxDepth) :
    (∀ id, validator.state.arena.AccessFree id →
      (∀ answer, (validator.resolve id).1 = answer ↔ validator.state.arena.ChainEnds id answer) ∧
        ((∃ target, (validator.resolve id).1 = .error (.referenceCycle target)) ↔
          ∀ place, (validator.state.arena.chainAt id place).isSome = true)) ∧
      ∀ id resolved, (validator.resolve id).1 = .ok resolved →
        (∃ node, (validator.resolve id).2.state.arena.get? resolved = some node ∧ node.IsConcrete) ∧
          ∀ later, (validator.resolve id).2.Leads later →
            later.resolve resolved = (.ok resolved, later) := by
  rw [← reachable.options_eq] at positive
  constructor
  · intro id free
    obtain ⟨answer, ran, ends⟩ := resolve_chain positive free
    rw [ran]
    constructor
    · intro other
      constructor
      · intro same
        rwa [← same]
      · exact ends.unique
    · exact ends.infinite_iff
  · intro id resolved answer
    exact resolve_again positive reachable.sound answer

/-- A chain of references to a schema, and one into a cycle that it does not start on. -/
def roundabout : Registry :=
  (((((Registry.empty.insert "m" "Alias" (.reference "m/Name")).insert "m" "Entry"
    (.reference "m/Loop")).insert "m" "Loop" (.reference "m/Round")).insert "m" "Name"
      (.reference "m/Text")).insert "m" "Round" (.reference "m/Loop")).insert "m" "Text" .string

theorem resolution_is_exact_roundabout :
    let validator := Validator.ofRegistry roundabout { maxDepth := 1 }
    (validator.resolve ⟨2⟩).1 = .ok ⟨7⟩ ∧
      (validator.resolve ⟨3⟩).1 = .error (.referenceCycle "m/Round") ∧
      (∀ place, (validator.state.arena.chainAt ⟨3⟩ place).isSome = true) ∧
      validator.resolve ⟨7⟩ = (.ok ⟨7⟩, validator) := by
  intro validator
  have free : validator.state.arena.NoAccess := by decide
  obtain ⟨chains, settled⟩ :=
    resolution_is_exact (.refl : Reachable roundabout { maxDepth := 1 } validator) Nat.one_pos
  obtain ⟨answers, -⟩ := chains ⟨2⟩ (free.accessFree ⟨2⟩)
  obtain ⟨answers', cyclic⟩ := chains ⟨3⟩ (free.accessFree ⟨3⟩)
  have straight : (validator.resolve ⟨2⟩).1 = .ok ⟨7⟩ := by
    have reached : validator.state.arena.chainAt ⟨2⟩ 2 = some ⟨7⟩ := rfl
    exact (answers _).mpr (.concrete reached rfl trivial)
  have round : (validator.resolve ⟨3⟩).1 = .error (.referenceCycle "m/Round") := by
    have reached : validator.state.arena.chainAt ⟨3⟩ 1 = some ⟨4⟩ := rfl
    have repeated : validator.state.arena.chainAt ⟨3⟩ 3 = some ⟨4⟩ := rfl
    apply (answers' _).mpr
    apply Arena.ChainEnds.cycle (by omega) reached repeated _ rfl
    intro left right before below
    have places : left = 0 ∧ right = 1 ∨ left = 0 ∧ right = 2 ∨ left = 1 ∧ right = 2 := by omega
    rcases places with ⟨rfl, rfl⟩ | ⟨rfl, rfl⟩ | ⟨rfl, rfl⟩ <;> decide
  have again := (settled ⟨2⟩ ⟨7⟩ straight).2 validator .refl
  exact ⟨straight, round, cyclic.mp ⟨_, round⟩, again⟩

end Conform.Validator
