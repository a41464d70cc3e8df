import Conform.Proofs.Arena.Ordered
import Conform.Proofs.Validator.Stable
import Conform.Validator.Basic

/-! Validators that calls lead to.  Every call keeps the options, and keeps the
state sound; what is there stays there. -/

namespace Conform.Validator

open Run Resolver

variable {core : Nat} {registry : Registry} {options : Options} {validator before after : Validator}
  {id : SchemaId}

/-- The identity stands for a node. -/
def Issued (validator : Validator) (id : SchemaId) : Prop :=
  id.index < validator.state.arena.size

instance : Decidable (validator.Issued id) :=
  inferInstanceAs (Decidable (id.index < validator.state.arena.size))

/-- A call.  A node is added as it is only with issued identities in it. -/
inductive Step : Validator → Validator → Prop
  | lookup (validator : Validator) (path symbol : String) :
      Step validator (validator.lookup path symbol).2
  | intern (validator : Validator) (schema : Schema) : Step validator (validator.intern schema).2
  | alloc (validator : Validator) (node : Node)
      (issued : ∀ child ∈ node.children, validator.Issued child) :
      Step validator (validator.alloc node).2
  | resolve (validator : Validator) (id : SchemaId) : Step validator (validator.resolve id).2
  | isInterfaceLike (validator : Validator) (id : SchemaId) :
      Step validator (validator.isInterfaceLike id).2
  | flatten (validator : Validator) (id : SchemaId) : Step validator (validator.flatten id).2
  | distribute (validator : Validator) (id : SchemaId) : Step validator (validator.distribute id).2
  | foreignFields (validator : Validator) (id : SchemaId) :
      Step validator (validator.foreignFields id).2
  | validateById (validator : Validator) (value : Value) (id : SchemaId) :
      Step validator (validator.validateById value id).2
  | validate (validator : Validator) (value : Value) (path symbol : String) :
      Step validator (validator.validate value path symbol).2

/-- Any calls, one after the other. -/
def Leads : Validator → Validator → Prop :=
  Relation.ReflTransGen Step

/-- What calls lead to from a registry. -/
def Reachable (registry : Registry) (options : Options) (validator : Validator) : Prop :=
  Leads (.ofRegistry registry options) validator

/-- The number of nodes of the registry. -/
def coreSize (registry : Registry) : Nat :=
  (Arena.ofRegistry registry).size

/-- What calls keep. -/
structure Advances (core : Nat) (before after : Validator) : Prop where
  options : after.options = before.options
  grown : before.state ≤ after.state
  sound : after.state.Sound core

theorem Advances.refl (sound : validator.state.Sound core) : Advances core validator validator :=
  ⟨rfl, le_refl _, sound⟩

theorem Advances.trans {middle : Validator} (first : Advances core before middle)
    (second : Advances core middle after) : Advances core before after :=
  ⟨second.options.trans first.options, le_trans first.grown second.grown, second.sound⟩

theorem Advances.perform {α : Type} {run : Run α} {post : α → ResolverState → Prop}
    (meets : Meets run validator.state (Grows core validator.state) post) :
    Advances core validator (validator.perform run).2 :=
  ⟨rfl, meets.leaves.grown, meets.leaves.sound⟩

theorem of_perform {α : Type} {run : Run α} {answer : α}
    (ran : validator.perform run = (.ok answer, after)) :
    run validator.state = (.ok answer, after.state) := by
  have first : (validator.perform run).1 = .ok answer := by rw [ran]
  have second : (validator.perform run).2.state = after.state := by rw [ran]
  exact Prod.ext first second

theorem lookup_meets (path symbol : String) {state : ResolverState} (sound : state.Sound core) :
    Meets (Resolver.lookup path symbol) state (Grows core state) fun _ after => after = state := by
  have stays := Grows.refl sound
  refine .bind (.read _ stays) ?_
  rintro present _ - ⟨-, rfl⟩
  split
  · refine .bind (.read _ stays) ?_
    rintro found _ - ⟨-, rfl⟩
    split
    · exact .pure stays rfl
    · exact .fail stays
  · exact .fail stays

theorem lookup_defined {path symbol : String} {state : ResolverState}
    (named : state.arena.symbol? path symbol = some id) :
    Resolver.lookup path symbol state = (.ok id, state) := by
  obtain ⟨symbols, module, -⟩ := Option.bind_eq_some_iff.mp named
  have present : state.arena.hasModule path = true := by
    rw [Arena.hasModule, module]
    rfl
  simp only [Resolver.lookup, bind_ok (read_apply _), present, if_true, named, pure_apply]

theorem Step.advances (step : Step before after) (sound : before.state.Sound core) :
    Advances core before after := by
  cases step with
  | lookup path symbol => exact .perform (lookup_meets path symbol sound)
  | intern schema =>
      exact ⟨rfl, ⟨Arena.le_intern sound.ordered_nodes schema, le_refl _, le_refl _, le_refl _,
        le_refl _⟩, sound.intern schema⟩
  | alloc node issued => exact ⟨rfl, le_alloc node before.state, sound.alloc issued⟩
  | resolve id => exact .perform (resolve_stable _ id _ sound)
  | isInterfaceLike id =>
      have stable : Stable core (Resolver.isInterfaceLike before.options.maxDepth id) :=
        .bind (resolve_stable _ id) fun resolved => .bind (.node resolved) fun _ => .pure _
      exact .perform (stable _ sound)
  | flatten id => exact .perform (flatten_stable _ id _ sound)
  | distribute id => exact .perform (distributeWithin_stable _ _ id _ sound)
  | foreignFields id => exact .perform (foreignFields_stable _ id _ sound)
  | validateById value id => exact .perform (check_stable _ value id _ sound)
  | validate value path symbol =>
      have meets : Meets (do
          let id ← Resolver.lookup path symbol
          check before.options value id) before.state (Grows core before.state) fun _ _ => True := by
        refine .bind (lookup_meets path symbol sound) ?_
        rintro id _ - rfl
        exact (check_stable _ value id _ sound).imp (fun _ grows => grows) fun _ _ _ _ => trivial
      exact .perform meets

theorem Leads.advances (leads : Leads before after) (sound : before.state.Sound core) :
    Advances core before after := by
  induction leads with
  | refl => exact .refl sound
  | tail _ step ih => exact ih.trans (step.advances ih.sound)

theorem Advances.issued (advances : Advances core before after) (issued : before.Issued id) :
    after.Issued id :=
  Nat.lt_of_lt_of_le issued (ResolverState.size_mono advances.grown)

theorem Reachable.advances (reachable : Reachable registry options validator) :
    Advances (coreSize registry) (.ofRegistry registry options) validator :=
  Leads.advances reachable (ResolverState.ofRegistry_sound registry)

theorem Reachable.sound (reachable : Reachable registry options validator) :
    validator.state.Sound (coreSize registry) :=
  reachable.advances.sound

theorem Reachable.options_eq (reachable : Reachable registry options validator) :
    validator.options = options :=
  reachable.advances.options

theorem Reachable.step (reachable : Reachable registry options before) (step : Step before after) :
    Reachable registry options after :=
  Relation.ReflTransGen.tail reachable step

theorem Reachable.leads (reachable : Reachable registry options before) (leads : Leads before after) :
    Reachable registry options after :=
  Relation.ReflTransGen.trans reachable leads

/-- Adds nodes as they are, one after the other. -/
def allocAll (validator : Validator) (nodes : List Node) : Validator :=
  nodes.foldl (fun validator node => (validator.alloc node).2) validator

/-- Every node has only identities in it that are issued by its turn. -/
def Issuable : Validator → List Node → Prop
  | _, [] => True
  | validator, node :: rest =>
      (∀ child ∈ node.children, validator.Issued child) ∧ Issuable (validator.alloc node).2 rest

instance decideIssuable : (validator : Validator) → (nodes : List Node) → Decidable (validator.Issuable nodes)
  | _, [] => inferInstanceAs (Decidable True)
  | validator, node :: rest =>
      have := decideIssuable (validator.alloc node).2 rest
      inferInstanceAs (Decidable (_ ∧ _))

theorem Reachable.allocAll {nodes : List Node} (reachable : Reachable registry options validator)
    (issuable : validator.Issuable nodes) : Reachable registry options (validator.allocAll nodes) := by
  induction nodes generalizing validator with
  | nil => exact reachable
  | cons node rest ih => exact ih (reachable.step (.alloc validator node issuable.1)) issuable.2

end Conform.Validator
