import Conform.Proofs.Agreement.Identity
import Conform.Proofs.Validator.Reachable

/-! What a validator remembers cannot be seen.  Without its memos, and before any
calls that have filled them, it gives the same answers, except that it may reach
the limit where it otherwise remembers. -/

namespace Conform.Validator

open Resolver

variable {core : Nat} {registry : Registry} {options : Options} {validator later : Validator}
  {id : SchemaId}

/-- The same nodes and options, with all memos emptied. -/
def forget (validator : Validator) : Validator :=
  { validator with state := .ofArena validator.state.arena }

/-- The answer is that the recursion limit is exceeded. -/
def IsLimited {α : Type} (answer : Except SchemaError α) : Prop :=
  ∃ limit, answer = .error (.depthLimitExceeded limit)

theorem not_isLimited {α : Type} {answer : Except SchemaError α} (answered : answer.isOk = true) :
    ¬ IsLimited answer := by
  rintro ⟨limit, rfl⟩
  cases answered

theorem validateById_later (sound : validator.state.Sound core) (issued : validator.Issued id)
    (leads : validator.Leads later) (value : Value) :
    IsLimited (validator.validateById value id).1 ∨
      (validator.validateById value id).1 = (later.validateById value id).1 := by
  have advances := leads.advances sound
  have same : (later.validateById value id).1 = (check validator.options value id later.state).1 := by
    rw [← advances.options]
    rfl
  rw [same]
  exact Agreement.check_outcome sound advances.sound advances.grown issued

/-- The answer without what is remembered, and the answer after further calls. -/
theorem answers_do_not_depend_on_memos (reachable : Reachable registry options validator)
    (issued : validator.Issued id) (value : Value) :
    (IsLimited (validator.forget.validateById value id).1 ∨
        (validator.forget.validateById value id).1 = (validator.validateById value id).1) ∧
      ∀ later, validator.Leads later → IsLimited (validator.validateById value id).1 ∨
        (validator.validateById value id).1 = (later.validateById value id).1 := by
  have sound := reachable.sound
  refine ⟨?_, fun later leads => validateById_later sound issued leads value⟩
  exact Agreement.check_outcome sound.forget sound (ResolverState.forget_le _) issued

/-- An interface whose optional property is looked up, and a choice between the
two. -/
def sampleSchema : Schema :=
  let declared := .interface [⟨0, "size", true, .number none⟩, ⟨1, "name", false, .string⟩] none []
  .union [⟨0, declared⟩, ⟨1, .indexedAccess declared "size"⟩]

def sample : Validator :=
  ((Validator.ofRegistry .empty {}).intern sampleSchema).2

theorem sample_reachable : Reachable .empty {} sample :=
  .single (.intern _ _)

theorem answers_do_not_depend_on_memos_sample :
    let used := (sample.validateById (.string "small") ⟨9⟩).2
    Reachable .empty {} used ∧ used.Issued ⟨9⟩ ∧
      (IsLimited (used.forget.validateById .undefined ⟨9⟩).1 ∨
        (used.forget.validateById .undefined ⟨9⟩).1 = (used.validateById .undefined ⟨9⟩).1) := by
  have reachable := sample_reachable.step (.validateById sample (.string "small") ⟨9⟩)
  have issued : sample.Issued ⟨9⟩ := by decide
  have issued' := (Step.advances (.validateById sample (.string "small") ⟨9⟩)
    sample_reachable.sound).issued issued
  exact ⟨reachable, issued', (answers_do_not_depend_on_memos reachable issued' .undefined).1⟩

end Conform.Validator
