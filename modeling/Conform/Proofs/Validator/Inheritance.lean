import Conform.Proofs.Resolver.Inheriting
import Conform.Proofs.Validator.Flattening
import Conform.Proofs.Validator.References

/-! Inheritance.  Of all properties of one name the first one wins, in the order in which an
interface and what it inherits from are met; and so does the first index signature. -/

namespace Conform.Validator

open Run Resolver

variable {registry : Registry} {options : Options} {validator after : Validator} {id : SchemaId}
  {flat : Shape} {own : List Property} {index : Option IndexSignature} {parents : List SchemaId}

/-- All that an interface declares or inherits, parents as the validator itself resolves them. -/
def Lineage (validator : Validator) : SchemaId → List Property → Option IndexSignature → Prop :=
  validator.state.arena.Lineage validator.ResolvesTo

theorem Lineage.unique {properties others : List Property} {other : Option IndexSignature}
    (lineage : validator.Lineage id properties index) (same : validator.Lineage id others other) :
    properties = others ∧ index = other := by
  apply Arena.Lineage.unique _ lineage others other same
  intro parent resolved resolved' leads leads'
  cases leads.symm.trans leads'
  rfl

/-- The shape of an interface is its lineage, without the properties whose name occurred before. -/
theorem inheritance_is_first_wins (reachable : Reachable registry options validator)
    (node : validator.state.arena.get? id = some (.interface own index parents))
    (flattens : validator.flatten id = (.ok flat, after)) :
    ∀ later, after.Leads later → (∃ properties signature, later.Lineage id properties signature) ∧
      ∀ properties signature, later.Lineage id properties signature →
        flat = ⟨properties.eraseDupsBy (·.name == ·.name), signature⟩ := by
  intro later leads
  have reached := reachable.flattened flattens
  have advances := leads.advances reached.sound
  have step : Step validator after := by
    have flattening := Step.flatten validator id
    rwa [flattens] at flattening
  have grown := le_trans (step.advances reachable.sound).grown advances.grown
  obtain ⟨limit, depth⟩ := flatten_takes_steps reachable flattens
  have positive : 0 < later.options.maxDepth := by
    rw [(reached.leads leads).options_eq, depth]
    exact Nat.succ_pos limit
  obtain ⟨all, first, lineage, same⟩ := lineage_of_known advances.sound
    (fun parent resolved resolves => resolve_eq positive resolves)
    (ResolverState.shape_later (flatten_known reachable flattens) advances.grown) own index parents
    (ResolverState.get?_later node grown)
  constructor
  · exact ⟨all, first, lineage⟩
  · intro properties signature other
    obtain ⟨rfl, rfl⟩ := Lineage.unique other lineage
    rw [same, Shape.own, Shape.inheritProperties_nil]

/-- A diamond whose bottom declares a name twice.  The shape of its right side is known already. -/
def diamond : Validator :=
  (((Validator.ofRegistry .empty { maxDepth := 8 }).allocAll
    [.interface [⟨"id", false, ⟨0⟩⟩] none [],
      .interface [⟨"id", true, ⟨1⟩⟩, ⟨"left", false, ⟨0⟩⟩] (some ⟨.number, ⟨1⟩⟩) [⟨2⟩],
      .interface [⟨"right", false, ⟨0⟩⟩, ⟨"left", false, ⟨1⟩⟩] (some ⟨.string, ⟨0⟩⟩) [⟨2⟩],
      .interface [⟨"own", false, ⟨0⟩⟩, ⟨"own", true, ⟨1⟩⟩] none [⟨3⟩, ⟨4⟩]]).flatten ⟨4⟩).2

theorem diamond_reachable : Reachable .empty { maxDepth := 8 } diamond :=
  Reachable.step (Reachable.allocAll .refl (by decide)) (.flatten _ ⟨4⟩)

theorem inheritance_is_first_wins_diamond :
    let flat : Shape := ⟨[⟨"own", false, ⟨0⟩⟩, ⟨"id", true, ⟨1⟩⟩, ⟨"left", false, ⟨0⟩⟩,
      ⟨"right", false, ⟨0⟩⟩], some ⟨.number, ⟨1⟩⟩⟩
    let after := (diamond.flatten ⟨5⟩).2
    diamond.flatten ⟨5⟩ = (.ok flat, after) ∧ ∃ properties signature,
      after.Lineage ⟨5⟩ properties signature ∧
        flat = ⟨properties.eraseDupsBy (·.name == ·.name), signature⟩ := by
  intro flat after
  have node : diamond.state.arena.get? ⟨5⟩ = some (.interface
      [⟨"own", false, ⟨0⟩⟩, ⟨"own", true, ⟨1⟩⟩] none [⟨3⟩, ⟨4⟩]) := rfl
  have flattens : diamond.flatten ⟨5⟩ = (.ok flat, after) := rfl
  obtain ⟨⟨properties, signature, lineage⟩, merged⟩ :=
    inheritance_is_first_wins diamond_reachable node flattens after .refl
  exact ⟨flattens, properties, signature, lineage, merged properties signature lineage⟩

end Conform.Validator
