import Conform.Proofs.Resolver.Limited
import Conform.Proofs.Validator.Congruence
import Conform.Validator.Basic

/-! A limit only cuts validation off.  Under a smaller one, validation fails with that limit or
gives the outcome that it gives under a larger one. -/

namespace Conform.Validator

open Run Resolver

variable {options : Options} {value : Value} {limit larger steps more levels : Nat}
  {checkPart checkPart' : Value → SchemaId → Run Outcome}

/-- The larger limit has at least as many steps left. -/
theorem checkWithin_limits (le : limit ≤ larger)
    (parts : ∀ part id, Limits limit (checkPart part id) (checkPart' part id)) (fewer : steps ≤ more) :
    (∀ id, Limits limit (checkWithin (options.withMaxDepth limit) checkPart value steps id)
        (checkWithin (options.withMaxDepth larger) checkPart' value more id)) ∧
      ∀ foreign id,
        Limits limit (checkMemberWithin (options.withMaxDepth limit) checkPart value steps foreign id)
          (checkMemberWithin (options.withMaxDepth larger) checkPart' value more foreign id) := by
  have operates : Operates (cutoff (.depthLimitExceeded limit)) limit larger :=
    { node := fun _ => .refl _
      resolve := (within_limits limit larger le).1
      distribute := distributeWithin_limits le le
      flatten := (within_limits limit larger le).2 []
      foreignFields := foreignFields_limits le }
  induction steps generalizing more with
  | zero => exact ⟨fun _ => .fail _, fun _ _ => .fail _⟩
  | succ steps ih =>
      obtain ⟨more, rfl⟩ := Nat.exists_eq_add_one.mpr (Nat.lt_of_lt_of_le (Nat.succ_pos _) fewer)
      obtain ⟨own, asMember⟩ := ih (Nat.le_of_succ_le_succ fewer)
      exact checkStep_related operates (fun part _ => parts part) options own asMember

theorem checkLevels_limits (le : limit ≤ larger) (value : Value) (id : SchemaId) :
    Limits limit (checkLevels (options.withMaxDepth limit) levels value id)
      (checkLevels (options.withMaxDepth larger) levels value id) := by
  induction levels generalizing value id with
  | zero => exact .fail _
  | succ levels ih => exact (checkWithin_limits le ih le).1 id

/-- Of two limits, the smaller one fails or does not matter: a fresh validator with it gives the
same outcome, a failure with all its details and an error of the schema alike, and learns the
same. -/
theorem smaller_limit_only_cuts_off (registry : Registry) (options : Options) {limit larger : Nat}
    (le : limit ≤ larger) (value : Value) (path symbol : String) :
    let answerAt (maxDepth : Nat) :=
      (ofRegistry registry (options.withMaxDepth maxDepth)).validate value path symbol
    (answerAt limit).1 = .error (.depthLimitExceeded limit) ∨
      ((answerAt limit).1 = (answerAt larger).1 ∧
        (answerAt limit).2.state = (answerAt larger).2.state) := by
  have cuts : Limits limit
      (Resolver.lookup path symbol >>= check (options.withMaxDepth limit) value)
      (Resolver.lookup path symbol >>= check (options.withMaxDepth larger) value) :=
    .bind (.refl _) fun id => checkLevels_limits le value id
  rcases cuts (.ofArena (.ofRegistry registry)) with failed | same
  · exact .inl failed
  · exact .inr ⟨congrArg (·.1) same, congrArg (·.2) same⟩

/-- A union behind two references, with a combinator on an interface that leads back to the
first union. -/
def nested : Registry :=
  (((Registry.empty.insert "m" "A" (.union (Branch.numbered [.string, .reference "m/B"]))).insert
    "m" "B" (.reference "m/C")).insert "m" "C"
    (.union (Branch.numbered [.boolean, .optional (.reference "m/D")]))).insert "m" "D"
    (.interface [⟨0, "a", false, .reference "m/A"⟩] none [])

def nestedValue : Value :=
  .object (.ofList [("a", .object (.ofList [("a", .string "x")]))])

theorem smaller_limit_only_cuts_off_nested :
    4 ≤ 5 ∧
      let answerAt (maxDepth : Nat) :=
        (ofRegistry nested (Options.withMaxDepth {} maxDepth)).validate nestedValue "m" "A"
      (answerAt 4).1 = .error (.depthLimitExceeded 4) ∨
        ((answerAt 4).1 = (answerAt 5).1 ∧ (answerAt 4).2.state = (answerAt 5).2.state) :=
  ⟨by decide, smaller_limit_only_cuts_off nested {} (by decide) nestedValue "m" "A"⟩

/-- Four steps are too few, five are enough on every level. -/
example :
    ((ofRegistry nested (Options.withMaxDepth {} 4)).validate nestedValue "m" "A").1 =
        .error (.depthLimitExceeded 4) ∧
      ((ofRegistry nested (Options.withMaxDepth {} 5)).validate nestedValue "m" "A").1 =
        .ok .success :=
  ⟨rfl, rfl⟩

end Conform.Validator
