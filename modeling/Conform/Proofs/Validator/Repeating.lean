import Conform.Proofs.Resolver.Steady
import Conform.Proofs.Validator.Reachable

/-! Questions that are asked again.  A question that has been answered is answered alike from then
on, one that has failed fails alike when it is asked again; and asking again changes nothing. -/

namespace Conform.Validator

open Run Resolver

variable {core : Nat} {registry : Registry} {options : Options} {validator before : Validator}
  {value : Value} {α : Type}

theorem steadiness_operates (core limit : Nat) : Operates (steadiness core) limit limit where
  node := .node
  resolve := resolve_steady limit
  distribute := distribute_steady limit
  flatten := flatten_steady limit
  foreignFields := foreignFields_steady limit

theorem check_steady (options : Options) (value : Value) (id : SchemaId) :
    Steady core (check options value id) :=
  have related : (steadiness core).Related (check options value id) (check options value id) :=
    checkLevels_self (steadiness_operates core _) (.fail _) (value.height + 1) value id
  related

/-- What a validator can be asked about a node, by the type of the answer. -/
inductive Question : Type → Type 1 where
  | resolve (id : SchemaId) : Question SchemaId
  | isInterfaceLike (id : SchemaId) : Question Bool
  | flatten (id : SchemaId) : Question Shape
  | distribute (id : SchemaId) : Question (Option SchemaId)
  | foreignFields (id : SchemaId) : Question ForeignFields
  | validateById (value : Value) (id : SchemaId) : Question Outcome

def ask (validator : Validator) : Question α → Except SchemaError α × Validator
  | .resolve id => validator.resolve id
  | .isInterfaceLike id => validator.isInterfaceLike id
  | .flatten id => validator.flatten id
  | .distribute id => validator.distribute id
  | .foreignFields id => validator.foreignFields id
  | .validateById value id => validator.validateById value id

namespace Question

def run (options : Options) : Question α → Run α
  | .resolve id => Resolver.resolve options.maxDepth id
  | .isInterfaceLike id => Resolver.isInterfaceLike options.maxDepth id
  | .flatten id => Resolver.flatten options.maxDepth id
  | .distribute id => Resolver.distribute options.maxDepth id
  | .foreignFields id => Resolver.foreignFields options.maxDepth id
  | .validateById value id => check options value id

theorem run_steady (options : Options) (question : Question α) : Steady core (question.run options) := by
  cases question with
  | resolve id => exact resolve_steady _ id
  | isInterfaceLike id => exact (steadiness_operates core _).isInterfaceLike id
  | flatten id => exact flatten_steady _ id
  | distribute id => exact distribute_steady _ id
  | foreignFields id => exact foreignFields_steady _ id
  | validateById value id => exact check_steady _ value id

end Question

theorem ask_eq_perform (validator : Validator) (question : Question α) :
    validator.ask question = validator.perform (question.run validator.options) := by
  cases question <;> rfl

/-- Every node and every entry of a memo stays as it is.  Asking again gives the same answer or the
same error and changes nothing; an answer is given again after any other calls as well.  A node is
only added for an origin of which nothing was remembered and of which it is remembered by then,
so for no origin twice. -/
theorem asking_again_changes_nothing (reachable : Reachable registry options before)
    (question : Question α) :
    let answer := (before.ask question).1
    let after := (before.ask question).2
    before.state ≤ after.state ∧ after.ask question = (answer, after) ∧
      (∀ result, answer = .ok result →
        ∀ later, Leads after later → later.ask question = (.ok result, later)) ∧
      Traced before.state after.state := by
  have sound := reachable.sound
  obtain ⟨stable, here⟩ : Steady (coreSize registry) (question.run before.options) :=
    question.run_steady before.options
  cases ran : question.run before.options before.state with
  | mk answer state =>
      have asked : before.ask question = (answer, { before with state }) := by
        rw [ask_eq_perform, perform, ran]
      have grows := (stable before.state sound).leaves
      obtain ⟨traced, repeats⟩ := here before.state sound
      rw [ran] at grows traced
      have again (result : α) (same : answer = .ok result) (later : Validator)
          (leads : Leads { before with state } later) : later.ask question = (.ok result, later) := by
        obtain ⟨same_options, grown, sound'⟩ := leads.advances grows.sound
        subst same
        obtain ⟨options, later⟩ := later
        cases same_options
        rw [ask_eq_perform, perform, stable.again sound ran later grown sound']
      rw [asked]
      refine ⟨grows.grown, ?_, again, traced⟩
      cases answer with
      | ok result => exact again result rfl _ .refl
      | error error =>
          have failed := repeats error state ran
          rw [ask_eq_perform, perform, failed]

/-- An interface that inherits from an optional property, which is no interface. -/
def misled : Registry :=
  (Registry.empty.insert "m" "A" (.interface [⟨0, "x", true, .string⟩] none [])).insert "m" "B"
    (.interface [] none (Branch.numbered [.indexedAccess (.reference "m/A") "x"]))

/-- The failure adds the union for the access and remembers it, before it is found again. -/
theorem asking_again_changes_nothing_misled :
    let before := ofRegistry misled {}
    let answer := (before.ask (.flatten ⟨6⟩)).1
    let after := (before.ask (.flatten ⟨6⟩)).2
    Reachable misled {} before ∧ before.state ≤ after.state ∧
      after.ask (.flatten ⟨6⟩) = (answer, after) ∧
      (∀ result, answer = .ok result →
        ∀ later, Leads after later → later.ask (.flatten ⟨6⟩) = (.ok result, later)) ∧
      Traced before.state after.state :=
  ⟨.refl, asking_again_changes_nothing .refl (.flatten ⟨6⟩)⟩

example :
    let before := ofRegistry misled {}
    let after := (before.ask (.flatten ⟨6⟩)).2
    (before.ask (.flatten ⟨6⟩)).1 = .error (.nonInterfaceParent .union) ∧
      before.state.arena.size = 7 ∧ after.state.arena.size = 8 ∧
      after.state.projections.find? ⟨5⟩ = some ⟨7⟩ :=
  ⟨rfl, rfl, rfl, rfl⟩

end Conform.Validator
