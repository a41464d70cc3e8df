import Conform.Proofs.Resolver.Congruence

/-! Resolution under a smaller limit.  It stops with the error of that limit or does what it does
under the larger one: each recursion passes the error on as it is, and nothing else looks at how
many steps are left. -/

namespace Conform

namespace Run

variable {α β : Type} {run other first first' : Run α} {next next' : α → Run β} {error : SchemaError}

/-- Wherever it starts, the run fails with the error or does what the other one does. -/
def CutsOff (error : SchemaError) (run other : Run α) : Prop :=
  ∀ state, (run state).1 = .error error ∨ run state = other state

namespace CutsOff

theorem refl (run : Run α) : CutsOff error run run :=
  fun _ => .inr rfl

theorem fail (other : Run α) : CutsOff error (Run.fail error) other :=
  fun _ => .inl rfl

theorem bind (part : CutsOff error first first')
    (rest : ∀ answer, CutsOff error (next answer) (next' answer)) :
    CutsOff error (first >>= next) (first' >>= next') := by
  intro state
  rcases part state with failed | same
  · cases ran : first state with
    | mk outcome middle =>
        rw [ran] at failed
        cases failed
        rw [bind_error ran]
        exact .inl rfl
  · cases ran : first' state with
    | mk outcome middle =>
        rw [ran] at same
        cases outcome with
        | ok answer =>
            rw [bind_ok same, bind_ok ran]
            exact rest answer middle
        | error other =>
            rw [bind_error same, bind_error ran]
            exact .inr rfl

end CutsOff

def cutoff (error : SchemaError) : Congruence where
  Related := CutsOff error
  pure answer := .refl (pure answer)
  bind := .bind

theorem cutoff_steps (error : SchemaError) : (cutoff error).Steps where
  fail _ := .refl _
  read _ := .refl _
  node _ := .refl _
  alloc _ := .refl _
  keepShape _ _ := .refl _
  keepProjection _ _ := .refl _
  keepDistribution _ _ := .refl _

end Run

namespace Resolver

open Run

variable {limit larger steps more : Nat}

/-- What fails with the error of the limit, or does the same. -/
abbrev Limits (limit : Nat) {α : Type} (run other : Run α) : Prop :=
  CutsOff (.depthLimitExceeded limit) run other

theorem within_limits (limit larger : Nat) (fewer : steps ≤ more) :
    (∀ id, Limits limit (resolveWithin limit steps id) (resolveWithin larger more id)) ∧
      ∀ chain id, Limits limit (flattenWithin limit steps chain id)
        (flattenWithin larger more chain id) := by
  induction steps generalizing more with
  | zero =>
      refine ⟨fun id => .fail _, fun chain id => ?_⟩
      cases more with
      | zero => exact unlessKnown_related (cutoff_steps _) chain id (.fail _)
      | succ more => exact unlessKnown_related (cutoff_steps _) chain id (.fail _)
  | succ steps ih =>
      obtain ⟨more, rfl⟩ := Nat.exists_eq_add_one.mpr (Nat.lt_of_lt_of_le (Nat.succ_pos _) fewer)
      obtain ⟨resolves, flattens⟩ := ih (Nat.le_of_succ_le_succ fewer)
      refine ⟨fun id => .bind (.refl _) fun hops => ?_, fun chain id => ?_⟩
      · exact follow_related (cutoff_steps _)
          (project_related (cutoff_steps _) resolves (flattens [])) hops [] id
      · refine unlessKnown_related (cutoff_steps _) chain id (.bind ?_ fun shape => .refl _)
        exact flattenNode_related (cutoff_steps _) resolves (flattens (id :: chain)) id

/-- The length of a chain is bounded by the limit as well. -/
theorem walkChain_limits {resolve resolve' : SchemaId → Run SchemaId}
    (resolves : ∀ id, Limits limit (resolve id) (resolve' id)) (fewer : steps ≤ more)
    (chain : CombinatorChain) (target : SchemaId) :
    Limits limit (walkChain limit resolve steps chain target)
      (walkChain larger resolve' more chain target) := by
  induction steps generalizing more chain target with
  | zero => exact .fail _
  | succ steps ih =>
      obtain ⟨more, rfl⟩ := Nat.exists_eq_add_one.mpr (Nat.lt_of_lt_of_le (Nat.succ_pos _) fewer)
      refine .bind (resolves target) fun resolved => .bind (.refl _) fun node => ?_
      cases node with
      | mapped combinator inner => exact ih (Nat.le_of_succ_le_succ fewer) _ inner
      | _ => exact .refl _

theorem distributeWithin_limits (le : limit ≤ larger) (fewer : steps ≤ more) (id : SchemaId) :
    Limits limit (distributeWithin limit steps id) (distributeWithin larger more id) := by
  unfold distributeWithin
  refine .bind (.refl _) fun known => ?_
  cases known with
  | some union => exact .refl _
  | none =>
      cases steps with
      | zero => exact .fail _
      | succ steps =>
          obtain ⟨more, rfl⟩ := Nat.exists_eq_add_one.mpr (Nat.lt_of_lt_of_le (Nat.succ_pos _) fewer)
          have resolves := (within_limits limit larger (Nat.le_of_succ_le_succ fewer)).1
          refine .bind (.refl _) fun node => ?_
          cases node with
          | mapped combinator target =>
              exact .bind (walkChain_limits resolves le _ target) fun _ => .refl _
          | _ => exact .refl _

theorem collectWithin_limits (le : limit ≤ larger) (fewer : steps ≤ more) (collected : Collected)
    (ids : List SchemaId) :
    Limits limit (collectWithin limit steps collected ids) (collectWithin larger more collected ids) := by
  induction steps generalizing more collected ids with
  | zero => exact .fail _
  | succ steps ih =>
      obtain ⟨more, rfl⟩ := Nat.exists_eq_add_one.mpr (Nat.lt_of_lt_of_le (Nat.succ_pos _) fewer)
      have fewer := Nat.le_of_succ_le_succ fewer
      obtain ⟨resolves, flattens⟩ := within_limits limit larger fewer
      refine (cutoff _).foldlM (fun collected id _ => .bind (resolves id) fun resolved => ?_) _
      split
      · exact .refl _
      · refine .bind (.refl _) fun node => ?_
        cases node with
        | union members | intersection members => exact ih fewer _ members
        | interface _ _ _ | mapped _ _ =>
            refine .bind (distributeWithin_limits le fewer resolved) fun union => ?_
            cases union with
            | some union => exact ih fewer _ [union]
            | none => exact .bind (flattens [] resolved) fun _ => .refl _
        | _ => exact .refl _

theorem foreignFields_limits (le : limit ≤ larger) (id : SchemaId) :
    Limits limit (foreignFields limit id) (foreignFields larger id) := by
  refine .bind (.refl _) fun known => ?_
  cases known with
  | some fields => exact .refl _
  | none => exact .bind (collectWithin_limits le le .empty [id]) fun _ => .refl _

end Resolver

end Conform
