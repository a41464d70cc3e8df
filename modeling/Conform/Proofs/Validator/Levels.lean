import Conform.Proofs.Validator.Congruence

/-! Levels.  A check steps into the parts of a value only, so two checks that treat the
parts alike treat the value alike, and levels beyond the height of a value are never
used. -/

namespace Conform.Validator

open Run

variable {options : Options} {value : Value} {check checkOther : Value → SchemaId → Run Outcome}

theorem identity_operates (limit : Nat) : Operates identity limit limit where
  node _ := rfl
  resolve _ := rfl
  distribute _ := rfl
  flatten _ := rfl
  foreignFields _ := rfl

/-- Two checks that treat the parts alike. -/
theorem checkWithin_congr (same : ∀ part ∈ value.parts, ∀ id, check part id = checkOther part id) (steps : Nat) :
    (∀ id, checkWithin options check value steps id = checkWithin options checkOther value steps id) ∧
      ∀ foreign id, checkMemberWithin options check value steps foreign id =
        checkMemberWithin options checkOther value steps foreign id := by
  induction steps with
  | zero => exact ⟨fun _ => rfl, fun _ _ => rfl⟩
  | succ steps ih => exact checkStep_related (identity_operates options.maxDepth) same options ih.1 ih.2

/-- Levels beyond the height are not used. -/
theorem checkLevels_enough {levels more : Nat} (enough : value.height < levels)
    (enough' : value.height < more) :
    checkLevels options levels value = checkLevels options more value := by
  induction levels generalizing more value with
  | zero => exact (Nat.not_lt_zero _ enough).elim
  | succ levels ih =>
      cases more with
      | zero => exact (Nat.not_lt_zero _ enough').elim
      | succ more =>
          funext id
          refine (checkWithin_congr (fun part listed type => ?_) options.maxDepth).1 id
          have smaller := Value.height_part listed
          exact congrFun (ih (by omega) (by omega)) type

theorem checkLevels_eq_check {levels : Nat} (enough : value.height < levels) :
    checkLevels options levels value = Validator.check options value := by
  funext id
  exact congrFun (checkLevels_enough enough (Nat.lt_succ_self _)) id

end Conform.Validator
