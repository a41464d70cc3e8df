import Conform.Proofs.Resolver.Combined
import Conform.Proofs.Shape.Algebra
import Conform.Proofs.Validator.Together

/-! Laws of the combinators that map fields.  Different combinators on one target flatten to
the same shape, or to shapes that share out the properties of the target. -/

namespace Conform.Validator

open Run Resolver

variable {core limit : Nat} {registry : Registry} {options : Options} {validator : Validator}
  {state after : ResolverState} {target id other under top patch : SchemaId}
  {combinators others : List Combinator} {shape otherShape base : Shape} {keys first second : List String}

/-- Combinators on a target, the outermost one first. -/
def Applied (validator : Validator) (combinators : List Combinator) (target id : SchemaId) : Prop :=
  Stacked 0 validator.state target combinators id

/-- The shapes of two schemas, if both have one, are the same. -/
def SameShape (validator : Validator) (id other : SchemaId) : Prop :=
  ∀ shape otherShape, (validator.flatten id).1 = .ok shape →
    (validator.flatten other).1 = .ok otherShape → shape = otherShape

/-- The laws of the combinators that map fields, for schemas that have shapes. -/
structure CombinatorLaws (validator : Validator) : Prop where
  without_without : ∀ target id other first second,
    validator.Applied [.without second, .without first] target id →
    validator.Applied [.without (first ++ second)] target other → validator.SameShape id other
  optional_optional : ∀ target id other, validator.Applied [.optional, .optional] target id →
    validator.Applied [.optional] target other → validator.SameShape id other
  optional_without : ∀ target id other keys,
    validator.Applied [.optional, .without keys] target id →
    validator.Applied [.without keys, .optional] target other → validator.SameShape id other
  pick_pick : ∀ target id other first second, (∀ key ∈ second, key ∈ first) →
    validator.Applied [.pick second, .pick first] target id →
    validator.Applied [.pick second] target other → validator.SameShape id other
  optional_pick : ∀ target id other keys base, (validator.flatten target).1 = .ok base →
    (∀ key ∈ keys, base.declares key = true) → validator.Applied [.optional, .pick keys] target id →
    validator.Applied [.pick keys, .optional] target other → validator.SameShape id other
  overwrite_overwrite : ∀ target under top patch id other,
    validator.Applied [.overwrite top, .overwrite under] target id →
    validator.Applied [.overwrite top] under patch →
    validator.Applied [.overwrite patch] target other → validator.SameShape id other
  /-- Every property of the target is picked or left, and no other one is. -/
  pick_or_without : ∀ target id other keys base picked left,
    (validator.flatten target).1 = .ok base → (∀ key ∈ keys, base.declares key = true) →
    validator.Applied [.pick keys] target id → validator.Applied [.without keys] target other →
    (validator.flatten id).1 = .ok picked → (validator.flatten other).1 = .ok left →
    (∀ property ∈ base.properties, Xor (property ∈ picked.properties) (property ∈ left.properties)) ∧
      ∀ property, property ∈ picked.properties ∨ property ∈ left.properties →
        property ∈ base.properties

/-- Two stacks on one target have the same shape if they make the same of every shape. -/
theorem sameShape (reachable : Reachable registry options validator)
    (applied : validator.Applied combinators target id)
    (applied' : validator.Applied others target other)
    (same : ∀ state base shape otherShape, validator.state ≤ state → state.Sound (coreSize registry) →
      combineAll? state base combinators = some shape →
      combineAll? state base others = some otherShape → shape = otherShape) :
    validator.SameShape id other := by
  intro shape otherShape flattens flattens'
  obtain ⟨state, grown, sound, known⟩ := exists_known reachable (le_refl _) reachable.sound
    [(id, shape), (other, otherShape)] (by simp [flattens, flattens'])
  obtain ⟨bottom, base, resolves, settled, made⟩ :=
    (applied.later grown).known sound (known (id, shape) (by simp))
  obtain ⟨bottom', base', resolves', settled', made'⟩ :=
    (applied'.later grown).known sound (known (other, otherShape) (by simp))
  cases resolves.unique resolves'
  cases settled.symm.trans settled'
  exact same state base shape otherShape grown sound made made'

theorem sameShape_of_eq (reachable : Reachable registry options validator)
    (applied : validator.Applied combinators target id)
    (applied' : validator.Applied others target other)
    (same : ∀ state base, combineAll? state base combinators = combineAll? state base others) :
    validator.SameShape id other := by
  apply sameShape reachable applied applied'
  intro state base shape otherShape _ _ made made'
  rw [same, made'] at made
  cases made
  rfl

/-- Stacks on a target that has a shape make theirs of it. -/
theorem exists_combined (reachable : Reachable registry options validator)
    (flattens : (validator.flatten target).1 = .ok base)
    (applied : validator.Applied combinators target id)
    (applied' : validator.Applied others target other)
    (answer : (validator.flatten id).1 = .ok shape)
    (answer' : (validator.flatten other).1 = .ok otherShape) :
    ∃ state, base.names.Nodup ∧ combineAll? state base combinators = some shape ∧
      combineAll? state base others = some otherShape := by
  obtain ⟨state, grown, sound, known⟩ :=
    exists_known reachable (le_refl _) reachable.sound
      [(target, base), (id, shape), (other, otherShape)] (by simp [flattens, answer, answer'])
  have bottom := known (target, base) (by simp)
  obtain ⟨older, -, accounted⟩ := shape_sound sound bottom
  exact ⟨state, accounted.distinct,
    (applied.later grown).combined sound (known (id, shape) (by simp)) bottom,
    (applied'.later grown).combined sound (known (other, otherShape) (by simp)) bottom⟩

/-- The combinators obey their laws wherever calls lead to. -/
theorem combinators_obey_laws (reachable : Reachable registry options validator) :
    validator.CombinatorLaws where
  without_without := by
    intro target id other first second applied applied'
    apply sameShape_of_eq reachable applied applied'
    intro state base
    simp [combineAll?, combine?, Shape.without_without]
  optional_optional := by
    intro target id other applied applied'
    apply sameShape_of_eq reachable applied applied'
    intro state base
    simp [combineAll?, combine?, Shape.allOptional_allOptional]
  optional_without := by
    intro target id other keys applied applied'
    apply sameShape_of_eq reachable applied applied'
    intro state base
    simp [combineAll?, combine?, Shape.allOptional_without]
  pick_pick := by
    intro target id other first second within applied applied'
    apply sameShape reachable applied applied'
    intro state base shape otherShape _ _ made made'
    simp only [combineAll?, Option.bind_some, Option.bind_eq_some_iff, combine?_pick] at made made'
    obtain ⟨mid, inner, outer⟩ := made
    rw [Shape.pick_pick inner within, made'] at outer
    cases outer
    rfl
  optional_pick := by
    intro target id other keys base flattens declared applied applied' shape otherShape answer answer'
    obtain ⟨state, -, made, made'⟩ :=
      exists_combined reachable flattens applied applied' answer answer'
    simp only [combineAll?, Option.bind_some, Option.bind_eq_some_iff, combine?_pick] at made made'
    obtain ⟨picked, inner, outer⟩ := made
    simp only [combine?, Option.some.injEq, exists_eq_left'] at outer made'
    rw [Shape.pick_allOptional declared, inner] at made'
    cases made'
    exact outer.symm
  overwrite_overwrite := by
    intro target under top patch id other applied patched applied'
    apply sameShape reachable applied applied'
    intro state base shape otherShape grown sound made made'
    simp only [combineAll?, Option.bind_some, Option.bind_eq_some_iff, combine?_overwrite] at made made'
    obtain ⟨_, ⟨lower, under_known, rfl⟩, upper, top_known, rfl⟩ := made
    obtain ⟨whole, patch_known, rfl⟩ := made'
    have combined := (patched.later grown).combined sound patch_known under_known
    simp only [combineAll?, Option.bind_some, combine?_overwrite] at combined
    obtain ⟨upper', top_known', rfl⟩ := combined
    cases top_known.symm.trans top_known'
    obtain ⟨older, -, accounted⟩ := shape_sound sound under_known
    exact Shape.overwrite_overwrite accounted.distinct
  pick_or_without := by
    intro target id other keys base picked left flattens declared applied applied' answer answer'
    obtain ⟨state, distinct, made, made'⟩ :=
      exists_combined reachable flattens applied applied' answer answer'
    simp only [combineAll?, Option.bind_some, combine?_pick] at made
    simp only [combineAll?, Option.bind_some, combine?, Option.some.injEq] at made'
    subst left
    exact Shape.pick_or_without distinct declared made

/-- Two layers on an interface with an index signature, put on it one by one and together, and
the interface shared out by two keys. -/
def layered : Validator :=
  (Validator.ofRegistry .empty { maxDepth := 8 }).allocAll
    [.interface [⟨"a", false, ⟨0⟩⟩, ⟨"b", true, ⟨1⟩⟩, ⟨"c", false, ⟨0⟩⟩] (some ⟨.string, ⟨1⟩⟩) [],
      .interface [⟨"b", false, ⟨0⟩⟩, ⟨"x", false, ⟨1⟩⟩] none [],
      .interface [⟨"x", true, ⟨0⟩⟩, ⟨"y", false, ⟨0⟩⟩, ⟨"a", false, ⟨1⟩⟩] (some ⟨.number, ⟨0⟩⟩) [],
      .mapped (.overwrite ⟨3⟩) ⟨2⟩, .mapped (.overwrite ⟨4⟩) ⟨5⟩,
      .mapped (.overwrite ⟨4⟩) ⟨3⟩, .mapped (.overwrite ⟨7⟩) ⟨2⟩,
      .mapped (.pick ["c", "a"]) ⟨2⟩, .mapped (.without ["c", "a"]) ⟨2⟩]

theorem layered_reachable : Reachable .empty { maxDepth := 8 } layered :=
  Reachable.allocAll .refl (by decide)

theorem combinators_obey_laws_layered :
    let flat : Shape := ⟨[⟨"a", false, ⟨1⟩⟩, ⟨"b", false, ⟨0⟩⟩, ⟨"c", false, ⟨0⟩⟩, ⟨"x", true, ⟨0⟩⟩,
      ⟨"y", false, ⟨0⟩⟩], some ⟨.number, ⟨0⟩⟩⟩
    (layered.flatten ⟨6⟩).1 = .ok flat ∧ (layered.flatten ⟨8⟩).1 = .ok flat ∧
      layered.SameShape ⟨6⟩ ⟨8⟩ ∧ layered.CombinatorLaws := by
  have laws := combinators_obey_laws layered_reachable
  have lower : layered.Applied [.overwrite ⟨3⟩] ⟨2⟩ ⟨5⟩ := .apply rfl (by decide) .base
  have left : layered.Applied [.overwrite ⟨4⟩, .overwrite ⟨3⟩] ⟨2⟩ ⟨6⟩ :=
    .apply rfl (by decide) lower
  have patched : layered.Applied [.overwrite ⟨4⟩] ⟨3⟩ ⟨7⟩ := .apply rfl (by decide) .base
  have right : layered.Applied [.overwrite ⟨7⟩] ⟨2⟩ ⟨8⟩ := .apply rfl (by decide) .base
  exact ⟨rfl, rfl, laws.overwrite_overwrite ⟨2⟩ ⟨3⟩ ⟨4⟩ ⟨7⟩ ⟨6⟩ ⟨8⟩ left patched right, laws⟩

end Conform.Validator
