import Conform.Proofs.Validator.Transparency

/-! What is remembered costs no steps.  So a call can reach the limit at first and
have an answer once other calls have filled the memos.  It never goes the other way:
what has an answer keeps it. -/

namespace Conform.Validator

open Resolver

variable {core : Nat} {registry : Registry} {options : Options} {validator later : Validator}
  {id : SchemaId}

/-- A call that reaches the limit reached it before any of the calls that led here, and
reaches it when everything is forgotten. -/
theorem limit_recedes (reachable : Reachable registry options validator)
    (issued : validator.Issued id) (leads : validator.Leads later) (value : Value)
    (limited : IsLimited (later.validateById value id).1) :
    IsLimited (validator.validateById value id).1 ∧
      IsLimited (later.forget.validateById value id).1 := by
  have sound := reachable.sound
  have issued' := (leads.advances sound).issued issued
  have forgotten : IsLimited (later.forget.validateById value id).1 ∨
      (later.forget.validateById value id).1 = (later.validateById value id).1 :=
    Agreement.check_outcome (leads.advances sound).sound.forget (leads.advances sound).sound
      (ResolverState.forget_le _) issued'
  constructor
  · rcases validateById_later sound issued leads value with first | same
    · exact first
    · rwa [same]
  · rcases forgotten with first | same
    · exact first
    · rwa [same]

/-- Three interfaces, each of which inherits from the next, under a limit that is one
short of the line. -/
def lineage : Validator :=
  ((Validator.ofRegistry .empty { maxDepth := 2 }).intern (.interface [] none
    (Branch.numbered [.interface [] none (Branch.numbered [.interface [] none []])]))).2

/-- The lineage once the shape of the second interface is known. -/
def tracedLineage : Validator :=
  (lineage.flatten ⟨3⟩).2

theorem tracedLineage_reachable : Reachable .empty { maxDepth := 2 } tracedLineage :=
  Relation.ReflTransGen.single (.intern _ _) |>.tail (.flatten _ ⟨3⟩)

theorem limit_depends_on_memos :
    Reachable .empty { maxDepth := 2 } tracedLineage ∧ tracedLineage.Issued ⟨4⟩ ∧
      (tracedLineage.forget.validateById (.object .empty) ⟨4⟩).1 =
        .error (.depthLimitExceeded 2) ∧
      (tracedLineage.validateById (.object .empty) ⟨4⟩).1 = .ok .success :=
  ⟨tracedLineage_reachable, by decide, rfl, rfl⟩

theorem limit_recedes_lineage :
    IsLimited (lineage.validateById (.object .empty) ⟨4⟩).1 ∧
      IsLimited (lineage.forget.validateById (.object .empty) ⟨4⟩).1 :=
  limit_recedes (.single (.intern _ _)) (by decide) .refl (.object .empty) ⟨2, rfl⟩

end Conform.Validator
