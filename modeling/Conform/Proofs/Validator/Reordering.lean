import Conform.Proofs.Validator.Monotone
import Conform.Proofs.Validator.Together

/-! The order of keys.  It decides which failure is reported and nothing else: two values that
differ only in the order of keys, at any depth, are accepted by the same schemas. -/

namespace Conform.Validator

open Run Resolver

variable {registry : Registry} {options : Options} {validator later : Validator}
  {first second : Value} {id : SchemaId} {outcome otherOutcome : Outcome}

/-- Of two values that resemble each other at every depth, an accepted one has no rejected
counterpart. -/
theorem resembling_relaxes {core : Nat} {state : ResolverState} {values : Value → Value → Prop}
    (alike : ∀ {value otherValue}, values value otherValue → value.Resembles values otherValue)
    (sound : state.Sound core) (same : values first second) (id : SchemaId) :
    Relaxes state state (check options first id) (check options second id) :=
  checkLevels_relaxes (.self sound) alike (Options.Looser.refl options) same rfl

theorem key_order_does_not_decide (reachable : Reachable registry options validator)
    (reordered : first.Reordered second) (leads : validator.Leads later)
    (answered : (validator.validateById first id).1 = .ok outcome)
    (otherAnswered : (later.validateById second id).1 = .ok otherOutcome) :
    outcome = .success ↔ otherOutcome = .success := by
  obtain ⟨state, -, sound, yields, otherYields⟩ := yield_together reachable leads answered otherAnswered
  constructor
  · rintro rfl
    exact resembling_relaxes Value.Reordered.resembles sound reordered id yields _ otherYields
  · rintro rfl
    exact resembling_relaxes Value.Reordered.resembles_flip sound reordered id otherYields _ yields

/-- A person with a home, next to any other fields. -/
def person : Validator :=
  ((Validator.ofRegistry .empty { maxDepth := 8 }).intern (.intersection (Branch.numbered
    [.interface [⟨0, "home", false, .interface [⟨0, "city", false, .string⟩, ⟨1, "zip", true, .string⟩]
      none []⟩] none [], .interface [] (some ⟨.string, .any⟩) []]))).2

theorem key_order_does_not_decide_home :
    let home : Object := ⟨[("city", .string "a"), ("zip", .string "b")]⟩
    let moved : Object := ⟨[("zip", .string "b"), ("city", .string "a")]⟩
    let first : Value := .object ⟨[("home", .object home), ("tags", .array [.object home])]⟩
    let second : Value := .object ⟨[("tags", .array [.object moved]), ("home", .object moved)]⟩
    first.Reordered second ∧ (person.validateById first ⟨8⟩).1 = .ok .success ∧
      ∀ outcome, ((person.validateById first ⟨8⟩).2.validateById second ⟨8⟩).1 = .ok outcome →
        outcome = .success := by
  intro home moved first second
  have reachable : Reachable .empty { maxDepth := 8 } person := .single (.intern _ _)
  have homes : (Value.object home).Reordered (.object moved) := by
    refine .object (show List.Nodup _ by decide) (by decide) fun {key part otherPart} found found' => ?_
    rcases List.mem_pair.mp (Object.mem_of_get? found) with ⟨⟨⟩⟩ | ⟨⟨⟩⟩ <;> cases found' <;> exact .same _
  have reordered : first.Reordered second := by
    refine .object (show List.Nodup _ by decide) (by decide) fun {key part otherPart} found found' => ?_
    rcases List.mem_pair.mp (Object.mem_of_get? found) with ⟨⟨⟩⟩ | ⟨⟨⟩⟩ <;> cases found'
    · exact homes
    · exact .array (.cons homes .nil)
  have accepted : (person.validateById first ⟨8⟩).1 = .ok .success := rfl
  refine ⟨reordered, accepted, fun outcome answered => ?_⟩
  exact (key_order_does_not_decide reachable reordered (.single (.validateById _ _ _)) accepted answered).mp rfl

/-- The order does decide which failure is reported. -/
example :
    let reported (object : Object) := (person.validateById (.object object) ⟨4⟩).1
    reported ⟨[("street", .null), ("city", .string "a"), ("country", .null)]⟩ =
        .ok (.failure (.within (.field "street") .unexpectedField)) ∧
      reported ⟨[("country", .null), ("city", .string "a"), ("street", .null)]⟩ =
        .ok (.failure (.within (.field "country") .unexpectedField)) :=
  ⟨rfl, rfl⟩

end Conform.Validator
