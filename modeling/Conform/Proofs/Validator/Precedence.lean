import Conform.Proofs.Validator.Accuracy
import Conform.Proofs.Validator.Tolerance
import Conform.Proofs.Validator.Together

/-! The first fault of an object.  Listed in the order in which the rules for an object look for
them, its faults begin with the one that is reported, and an object is accepted when there is none:
keys that are no numbers, declared properties, what is left. -/

namespace Conform

namespace Outcome

/-- The outcome that reports the first of the faults. -/
def ofFaults : List Failure → Outcome
  | [] => .success
  | fault :: _ => .failure fault

/-- The fault of a whole whose part has this outcome. -/
def faultsAt (segment : Segment) : Outcome → List Failure
  | .success => []
  | .failure cause => [.within segment cause]

variable {outcome : Outcome} {faults : List Failure} {fault : Failure} {segment : Segment}

theorem ofFaults_eq_success : ofFaults faults = .success ↔ faults = [] := by
  cases faults <;> simp [ofFaults]

theorem eq_nil_of_ofFaults {later : List Failure} (reported : ofFaults (faults ++ later) = .failure fault)
    (unlisted : fault ∉ faults) : faults = [] := by
  cases faults with
  | nil => rfl
  | cons first rest =>
      cases reported
      exact (unlisted (List.mem_cons_self ..)).elim

theorem faultsAt_eq_nil : outcome.faultsAt segment = [] ↔ outcome = .success := by
  cases outcome <;> simp [faultsAt]

theorem mem_faultsAt : fault ∈ outcome.faultsAt segment ↔
    ∃ cause, outcome = .failure cause ∧ fault = .within segment cause := by
  cases outcome <;> simp [faultsAt]

end Outcome

open Outcome Validator

section

variable (options : Options) (verdict : Value → SchemaId → Outcome) (object : Object)
  (foreign : Option ForeignFields) (shape : Shape)

/-- The object has nothing to check for the property: the key is missing or `undefined`, or it is
`null` and the property optional, where `null` may stand for `undefined`. -/
def Property.Lacks (property : Property) : Prop :=
  object.get? property.name = none ∨ object.get? property.name = some .undefined ∨
    (object.get? property.name = some .null ∧ property.optional = true ∧
      options.strictNullChecks = false)

/-- Nothing is wrong with the property: it is left out and may be, or its value is accepted. -/
inductive Property.Fine (property : Property) : Prop
  | leftOut (optional : property.optional = true) (lacks : property.Lacks options object)
  | accepted {part : Value} (own : object.get? property.name = some part)
      (present : ¬ property.Lacks options object) (accepted : verdict part property.type = .success)

/-- What is wrong with a declared property. -/
def Property.faults (property : Property) : List Failure :=
  match presentValue options object property with
  | some part => (verdict part property.type).faultsAt (.field property.name)
  | none => if property.optional then [] else [.within (.field property.name) .missingMember]

namespace Shape

/-- The parts of an object that the shape has something to say about, with the types for them. -/
inductive Asks : Value → SchemaId → Prop
  | property {property : Property} {part : Value} (listed : property ∈ shape.properties)
      (present : presentValue options object property = some part) : Asks part property.type
  | entry {signature : IndexSignature} {key : String} {part : Value}
      (signed : shape.index = some signature) (own : (key, part) ∈ object.entries)
      (undeclared : shape.declares key = false) (unclaimed : foreign.any (·.contains key) = false) :
      Asks part signature.type

/-- The keys that are not numbers, where they have to be. -/
def numberKeyFaults : List Failure :=
  if shape.index.map (·.keyType) = some .number then
    (object.keys.filter fun key => !isNumberKey key).map fun key => .within (.field key) .invalidNumberKey
  else []

/-- What is wrong with the entries that are not declared. -/
def remainingFaults : List Failure :=
  match shape.index with
  | some signature =>
      (object.entries.filter fun entry =>
          !(shape.declares entry.1 || foreign.any (·.contains entry.1))).flatMap fun entry =>
        (verdict entry.2 signature.type).faultsAt (.field entry.1)
  | none =>
      (object.keys.filter fun key => !(shape.declares key || foreign.any (·.permits key))).map fun key =>
        .within (.field key) .unexpectedField

/-- All that is wrong with an object: keys that are not numbers as the object lists them, then the
declared properties as the shape lists them, then what is left as the object lists it. -/
def faults : List Failure :=
  shape.numberKeyFaults object ++ shape.properties.flatMap (·.faults options verdict object) ++
    shape.remainingFaults verdict object foreign

end Shape

end

variable {options : Options} {verdict : Value → SchemaId → Outcome} {object : Object}
  {foreign : Option ForeignFields} {shape : Shape} {property : Property} {part : Value} {key : String}
  {fault : Failure}

theorem Property.lacks_iff : property.Lacks options object ↔ presentValue options object property = none := by
  unfold Lacks presentValue
  cases own : object.get? property.name with
  | none => simp
  | some part => cases part <;> simp [isAbsent]

theorem Property.faults_eq_nil : property.faults options verdict object = [] ↔
    property.Fine options verdict object := by
  cases present : presentValue options object property with
  | none =>
      have lacks := lacks_iff.mpr present
      simp only [faults, present]
      refine ⟨fun none => .leftOut (by simpa using none) lacks, fun fine => ?_⟩
      cases fine with
      | leftOut optional => simp [optional]
      | accepted _ present => exact (present lacks).elim
  | some part =>
      have own : object.get? property.name = some part := (Option.filter_eq_some_iff.mp present).1
      have has : ¬ property.Lacks options object := by simp [lacks_iff, present]
      simp only [faults, present, faultsAt_eq_nil]
      refine ⟨.accepted own has, fun fine => ?_⟩
      cases fine with
      | leftOut _ lacks => exact (has lacks).elim
      | accepted own' _ accepted =>
          cases own.symm.trans own'
          exact accepted

namespace Shape

theorem numberKeyFaults_eq_nil : shape.numberKeyFaults object = [] ↔
    (shape.index.map (·.keyType) = some .number → ∀ key ∈ object.keys, isNumberKey key = true) := by
  unfold numberKeyFaults
  split
  next numeric => simp [numeric]
  next other => simp [other]

theorem remainingFaults_eq_nil : shape.remainingFaults verdict object foreign = [] ↔
    ∀ key part, (key, part) ∈ object.entries → shape.declares key = false →
      match shape.index with
      | some signature => foreign.any (·.contains key) = true ∨ verdict part signature.type = .success
      | none => foreign.any (·.permits key) = true := by
  unfold remainingFaults
  cases shape.index with
  | none =>
      simp only [List.map_eq_nil_iff, List.filter_eq_nil_iff, Object.keys, List.mem_map]
      grind
  | some signature =>
      simp only [List.flatMap_eq_nil_iff, List.mem_filter, faultsAt_eq_nil]
      grind

theorem faults_eq_nil : shape.faults options verdict object foreign = [] ↔
    (shape.index.map (·.keyType) = some .number → ∀ key ∈ object.keys, isNumberKey key = true) ∧
      (∀ property ∈ shape.properties, property.Fine options verdict object) ∧
      ∀ key part, (key, part) ∈ object.entries → shape.declares key = false →
        match shape.index with
        | some signature => foreign.any (·.contains key) = true ∨ verdict part signature.type = .success
        | none => foreign.any (·.permits key) = true := by
  simp only [faults, List.append_eq_nil_iff, List.flatMap_eq_nil_iff, Property.faults_eq_nil,
    numberKeyFaults_eq_nil, remainingFaults_eq_nil, and_assoc]

end Shape

namespace Validator

open Run Resolver

variable {core : Nat} {registry : Registry} {validator : Validator} {state : ResolverState}
  {checkPart : Value → SchemaId → Run Outcome} {next run : Run Outcome} {type : SchemaId}
  {rest : List Failure} {outcome : Outcome}

/-- From here on the run has this outcome, whatever is learned in between. -/
def Decides (core : Nat) (state : ResolverState) (run : Run Outcome) (outcome : Outcome) : Prop :=
  ∀ later, state ≤ later → later.Sound core → (run later).1 = .ok outcome

theorem Decides.pure (outcome : Outcome) : Decides core state (pure outcome) outcome :=
  fun _ _ _ => rfl

theorem Decides.of_validateById (reachable : Reachable registry options validator)
    (checked : (validator.validateById part type).1 = .ok outcome) :
    Decides (coreSize registry) validator.state (check options part type) outcome := by
  intro later grown sound
  have ran := reachable.check_ok checked
  rcases Agreement.check_outcome reachable.sound sound grown (check_present ran) with ⟨_, limited⟩ | same
  · rw [ran] at limited
    cases limited
  · rw [← same, ran]

section

variable (parts : ∀ part id, Stable core (checkPart part id))

include parts

theorem checkThen_decides {segment : Segment}
    (here : Decides core state (checkPart part type) outcome)
    (onward : Decides core state next (.ofFaults rest)) :
    Decides core state (checkThen checkPart segment part type next)
      (.ofFaults (outcome.faultsAt segment ++ rest)) := by
  intro later grown sound
  have ran : checkPart part type later = (.ok outcome, (checkPart part type later).2) :=
    Prod.ext (here later grown sound) rfl
  have grows := (parts part type).grows sound ran
  rw [checkThen, bind_ok ran]
  cases outcome with
  | success => exact onward _ (le_trans grown grows.grown) grows.sound
  | failure cause => rfl

theorem checkEntries_decides {isDeclared : String → Bool} {entries : List (String × Value)}
    (asked : ∀ entry ∈ entries, isDeclared entry.1 = false →
      Decides core state (checkPart entry.2 type) (verdict entry.2 type)) :
    Decides core state (checkEntries checkPart isDeclared type entries)
      (.ofFaults ((entries.filter fun entry => !isDeclared entry.1).flatMap fun entry =>
        (verdict entry.2 type).faultsAt (.field entry.1))) := by
  induction entries with
  | nil => exact .pure _
  | cons entry rest ih =>
      obtain ⟨key, part⟩ := entry
      obtain ⟨here, onward⟩ := List.forall_mem_cons.mp asked
      simp only [checkEntries]
      cases declared : isDeclared key with
      | true => simpa [declared] using ih onward
      | false => simpa [declared] using checkThen_decides parts (here declared) (ih onward)

theorem checkProperties_decides {properties : List Property}
    (asked : ∀ property ∈ properties, ∀ part, presentValue options object property = some part →
      Decides core state (checkPart part property.type) (verdict part property.type))
    (onward : Decides core state next (.ofFaults rest)) :
    Decides core state (checkProperties checkPart options object next properties)
      (.ofFaults (properties.flatMap (·.faults options verdict object) ++ rest)) := by
  induction properties with
  | nil => exact onward
  | cons property properties ih =>
      obtain ⟨here, later⟩ := List.forall_mem_cons.mp asked
      simp only [checkProperties, List.flatMap_cons, List.append_assoc, Property.faults]
      cases present : presentValue options object property with
      | some part => exact checkThen_decides parts (here part present) (ih later)
      | none =>
          cases property.optional with
          | true => exact ih later
          | false => exact .pure _

theorem checkRemaining_decides
    (asked : ∀ part type, shape.Asks options object foreign part type →
      Decides core state (checkPart part type) (verdict part type)) :
    Decides core state (checkRemaining checkPart object shape foreign)
      (.ofFaults (shape.remainingFaults verdict object foreign)) := by
  unfold checkRemaining Shape.remainingFaults
  cases signed : shape.index with
  | some signature =>
      refine checkEntries_decides parts fun entry own free => ?_
      obtain ⟨undeclared, unclaimed⟩ := Bool.or_eq_false_iff.mp free
      exact asked entry.2 signature.type (.entry signed own undeclared unclaimed)
  | none =>
      suffices same : checkExcess (fun key => shape.declares key || foreign.any (·.permits key)) object.keys =
          .ofFaults ((object.keys.filter fun key => !(shape.declares key || foreign.any (·.permits key))).map
            fun key => .within (.field key) .unexpectedField) by
        exact same ▸ .pure _
      rw [checkExcess, ← List.head?_filter]
      cases object.keys.filter _ <;> rfl

/-- The object is refused with the first of its faults. -/
theorem checkShape_decides
    (asked : ∀ part type, shape.Asks options object foreign part type →
      Decides core state (checkPart part type) (verdict part type)) :
    Decides core state (checkShape checkPart options object shape foreign)
      (.ofFaults (shape.faults options verdict object foreign)) := by
  have after : Decides core state
      (checkProperties checkPart options object (checkRemaining checkPart object shape foreign) shape.properties)
      (.ofFaults (shape.properties.flatMap (·.faults options verdict object) ++
        shape.remainingFaults verdict object foreign)) :=
    checkProperties_decides parts (fun _ listed _ present => asked _ _ (.property listed present))
      (checkRemaining_decides parts asked)
  have numbers : checkNumberKeys shape.index object.keys = .ofFaults (shape.numberKeyFaults object) := by
    unfold checkNumberKeys Shape.numberKeyFaults
    rw [← List.head?_filter]
    split
    · cases object.keys.filter _ <;> rfl
    · rfl
  rw [checkShape, numbers, Shape.faults, List.append_assoc]
  cases shape.numberKeyFaults object with
  | nil => exact after
  | cons fault rest => exact .pure _

end

end Validator

/-- A part never fails with a bare `unexpectedField`, which would say nothing of it. -/
theorem Property.unexpected_not_mem
    (accurate : ∀ part, presentValue options object property = some part →
      (verdict part property.type).AccurateFor part) :
    .within (.field key) .unexpectedField ∉ property.faults options verdict object := by
  unfold faults
  cases present : presentValue options object property with
  | none => cases property.optional <;> simp
  | some part =>
      intro listed
      obtain ⟨cause, failed, same⟩ := mem_faultsAt.mp listed
      cases same
      have bare := accurate part present
      rw [failed] at bare
      cases bare

/-- A key of the object itself is unexpected only where nothing is wrong before. -/
theorem Shape.fine_of_unexpected
    (accurate : ∀ part type, shape.Asks options object foreign part type → (verdict part type).AccurateFor part)
    (reported : ofFaults (shape.faults options verdict object foreign) =
      .failure (.within (.field key) .unexpectedField)) :
    ∀ property ∈ shape.properties, property.Fine options verdict object := by
  have unlisted : .within (.field key) .unexpectedField ∉
      shape.numberKeyFaults object ++ shape.properties.flatMap (·.faults options verdict object) := by
    rw [List.mem_append, List.mem_flatMap]
    rintro (number | ⟨property, listed, here⟩)
    · unfold numberKeyFaults at number
      split at number <;> simp at number
    · exact property.unexpected_not_mem (fun part present => accurate _ _ (.property listed present)) here
  have none := (List.append_eq_nil_iff.mp (eq_nil_of_ofFaults reported unlisted)).2
  exact fun property listed => Property.faults_eq_nil.mp (List.flatMap_eq_nil_iff.mp none property listed)

namespace Validator

variable {registry : Registry} {validator : Validator}

/-- If every part that is asked about can be checked, so can the object.  The outcome is the first
fault, keys that are not numbers before declared properties before the rest; there is none exactly
for an object whose keys are numbers under a signature for them, whose declared properties are each
left out or accepted, and whose other entries the signature, or a sibling, accounts for. -/
theorem object_fails_with_its_first_fault (reachable : Reachable registry options validator)
    (shape : Shape) (object : Object) (foreign : Option ForeignFields)
    (verdict : Value → SchemaId → Outcome)
    (checked : ∀ part type, shape.Asks options object foreign part type →
      (validator.validateById part type).1 = .ok (verdict part type)) :
    ∃ outcome, (validator.perform
        (checkShape (check options) options object shape foreign)).1 = .ok outcome ∧
      outcome = .ofFaults (shape.faults options verdict object foreign) ∧
      (outcome = .success ↔
        (shape.index.map (·.keyType) = some .number → ∀ key ∈ object.keys, isNumberKey key = true) ∧
          (∀ property ∈ shape.properties, property.Fine options verdict object) ∧
          ∀ key part, (key, part) ∈ object.entries → shape.declares key = false →
            match shape.index with
            | some signature => foreign.any (·.contains key) = true ∨ verdict part signature.type = .success
            | none => foreign.any (·.permits key) = true) ∧
      ∀ key, outcome = .failure (.within (.field key) .unexpectedField) →
        ∀ property ∈ shape.properties, property.Fine options verdict object := by
  have decides : Decides (coreSize registry) validator.state
      (checkShape (check options) options object shape foreign)
      (.ofFaults (shape.faults options verdict object foreign)) :=
    checkShape_decides (fun part id => check_stable options part id) fun part type asked =>
      .of_validateById reachable (checked part type asked)
  refine ⟨_, decides _ (le_refl _) reachable.sound, rfl, ?_, fun key => Shape.fine_of_unexpected ?_⟩
  · rw [ofFaults_eq_success, Shape.faults_eq_nil]
  · intro part type asked
    exact checkLevels_accurate validator.options (part.height + 1) part type _ _ _
      (validateById_ok (checked part type asked))

/-- A declared property with a value of the wrong type, behind a key that is not declared. -/
theorem object_fails_with_its_first_fault_declared :
    let shape : Shape := ⟨[⟨"name", false, ⟨2⟩⟩], none⟩
    let object : Object := ⟨[("extra", .null), ("name", .boolean true)]⟩
    Reachable .empty {} namedList ∧
      (∀ part type, shape.Asks {} object none part type →
        (namedList.validateById part type).1 = .ok (checkString part)) ∧
      (namedList.perform (checkShape (check {}) {} object shape none)).1 =
        .ok (.failure (.within (.field "name") (.wrongType "string" "boolean"))) := by
  intro shape object
  have reachable : Reachable .empty {} namedList := .single (.intern _ _)
  have checked : ∀ part type, shape.Asks {} object none part type →
      (namedList.validateById part type).1 = .ok (checkString part) := by
    rintro part type (⟨listed, present⟩ | ⟨signed, -, -, -⟩)
    · cases List.mem_singleton.mp listed
      cases present
      rfl
    · cases signed
  obtain ⟨outcome, ran, first, -⟩ :=
    object_fails_with_its_first_fault reachable shape object none (fun part _ => checkString part) checked
  exact ⟨reachable, checked, by rw [ran, first]; rfl⟩

end Validator

end Conform
