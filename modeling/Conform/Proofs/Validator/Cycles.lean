import Conform.Proofs.Resolver.Cycles
import Conform.Proofs.Validator.Flattening
import Conform.Proofs.Validator.References

/-! Cycles of inheritance, as a validator finds them: exactly those that can be reached, and the
limit is not what finds them. -/

namespace Conform.Validator

open Relation Run Resolver

variable {core : Nat} {registry : Registry} {options : Options} {validator after : Validator}
  {id other : SchemaId} {flat : Shape}

/-- What the shape of a node is computed from, with links as the validator itself resolves them. -/
def DependsOn (validator : Validator) : SchemaId → SchemaId → Prop :=
  validator.state.arena.DependsOn validator.ResolvesTo

theorem dependsOn_eq (none : validator.state.arena.NoAccess) (positive : 0 < validator.options.maxDepth) :
    validator.DependsOn = validator.state.arena.DependsOn validator.state.arena.Ends := by
  have same : validator.ResolvesTo = validator.state.arena.Ends := by
    funext id resolved
    exact propext (resolvesTo_iff positive (none.accessFree id))
  rw [DependsOn, same]

/-- A flattening leaves the arena as it is, and its errors are justified. -/
theorem flatten_confined (none : validator.state.arena.NoAccess)
    (deep : validator.state.arena.size < validator.options.maxDepth) (id : SchemaId) :
    validator.state.arena.Confined (Resolver.flatten validator.options.maxDepth id) (fun _ => True)
      (Arena.Justifies (validator.state.arena.DependsOn validator.state.arena.Ends) id) :=
  Arena.flattenWithin_confined none _ .nil (by simpa using deep)

/-- From a node with a shape no cycle can be reached. -/
theorem no_circle_of_flat (sound : validator.state.Sound core) (none : validator.state.arena.NoAccess)
    (deep : validator.state.arena.size < validator.options.maxDepth)
    (flattens : validator.flatten id = (.ok flat, after)) :
    ∀ other, ReflTransGen (validator.state.arena.DependsOn validator.state.arena.Ends) id other →
      ¬ TransGen (validator.state.arena.DependsOn validator.state.arena.Ends) other other := by
  have ran := of_perform flattens
  obtain ⟨kept, -⟩ := flatten_confined none deep id validator.state rfl
  rw [ran] at kept
  have meets : Meets (Resolver.flatten validator.options.maxDepth id) validator.state _ _ :=
    flattenWithin_meets _ _ [] id validator.state sound
  have known := (meets.answers _ _ ran).1
  rw [← kept] at none ⊢
  exact Arena.no_circle_of_acc (known_acc none (meets.always_ok ran).sound known)

/-- Without indexed accesses cycles of inheritance are detected exactly, if the limit exceeds the
number of nodes. -/
theorem inheritance_cycles_are_detected (reachable : Reachable registry options validator)
    (none : validator.state.arena.NoAccess) (deep : validator.state.arena.size < options.maxDepth)
    (id : SchemaId) :
    ¬ IsLimited (validator.flatten id).1 ∧
      (∀ flat, (validator.flatten id).1 = .ok flat → ∀ other,
        ReflTransGen validator.DependsOn id other → ¬ TransGen validator.DependsOn other other) ∧
      ∀ other, (validator.flatten id).1 = .error (.cyclicInheritance other) →
        ReflTransGen validator.DependsOn id other ∧ TransGen validator.DependsOn other other := by
  rw [← reachable.options_eq] at deep
  rw [dependsOn_eq none (Nat.zero_lt_of_lt deep)]
  obtain ⟨-, outcome⟩ := flatten_confined none deep id validator.state rfl
  have justified {error : SchemaError} (failed : (validator.flatten id).1 = .error error) :
      Arena.Justifies (validator.state.arena.DependsOn validator.state.arena.Ends) id error := by
    have ran : (Resolver.flatten validator.options.maxDepth id validator.state).1 = .error error := failed
    rwa [ran] at outcome
  refine ⟨?limit, ?acyclic, ?cyclic⟩
  case limit =>
    intro limited
    obtain ⟨limit, failed⟩ := limited
    exact justified failed
  case acyclic =>
    intro flat answer
    exact no_circle_of_flat reachable.sound none deep (Prod.ext answer rfl)
  case cyclic =>
    intro other failed
    exact justified failed

/-- A cycle through the patch of one combinator and the target of another, and a way into it. -/
def entangled : Registry :=
  (((Registry.empty.insert "m" "Base" (.interface [] none [])).insert "m" "Entry"
    (.optional (.reference "m/Knot"))).insert "m" "Knot"
      (.overwrite (.reference "m/Base") (.reference "m/Twist"))).insert "m" "Twist"
        (.without (.reference "m/Knot") ["name"])

theorem inheritance_cycles_are_detected_entangled :
    let validator := Validator.ofRegistry entangled { maxDepth := 11 }
    (validator.flatten ⟨4⟩).1 = .error (.cyclicInheritance ⟨7⟩) ∧
      ReflTransGen validator.DependsOn ⟨4⟩ ⟨7⟩ ∧ TransGen validator.DependsOn ⟨7⟩ ⟨7⟩ ∧
      (validator.flatten ⟨2⟩).1 = .ok ⟨[], none⟩ ∧ ∀ other,
        ReflTransGen validator.DependsOn ⟨2⟩ other → ¬ TransGen validator.DependsOn other other := by
  intro validator
  have reachable : Reachable entangled { maxDepth := 11 } validator := .refl
  have none : validator.state.arena.NoAccess := by decide
  have deep : validator.state.arena.size < 11 := by decide
  obtain ⟨-, -, cyclic⟩ := inheritance_cycles_are_detected reachable none deep ⟨4⟩
  obtain ⟨-, acyclic, -⟩ := inheritance_cycles_are_detected reachable none deep ⟨2⟩
  have failed : (validator.flatten ⟨4⟩).1 = .error (.cyclicInheritance ⟨7⟩) := rfl
  have flattens : (validator.flatten ⟨2⟩).1 = .ok ⟨[], Option.none⟩ := rfl
  obtain ⟨leads, circle⟩ := cyclic ⟨7⟩ failed
  exact ⟨failed, leads, circle, flattens, acyclic _ flattens⟩

end Conform.Validator
