import Conform.Proofs.Resolver.KnownShapes
import Conform.Proofs.Validator.Finding
import Conform.Proofs.Validator.Levels
import Conform.Proofs.Validator.Repeating
import Conform.Proofs.Validator.Transparency
import Conform.Proofs.Validator.Yields

/-! Whose fault an error is.  A schema is looked into as far as a value leads, so one value may meet
an error that another one never comes near.  But every error, the limit apart, is the fault of some
schema that was met: of a part of the value, or of the value itself, it says nothing. -/

namespace Conform.Validator

open Run Resolver

variable {core : Nat} {α β : Type} {registry : Registry} {options : Options} {validator : Validator}
  {value part : Value} {id target : SchemaId} {base state after : ResolverState} {visited : List SchemaId}
  {fields : ForeignFields} {tolerated : Option ForeignFields} {error : SchemaError} {node : Node}
  {checkPart : Value → SchemaId → Run Outcome} {checkMember : SchemaId → Run Outcome}

/-- Some part of the value fails with the error, and that is where the run ends. -/
def PartFails (core : Nat) (checkPart : Value → SchemaId → Run Outcome) (value : Value)
    (error : SchemaError) (after : ResolverState) : Prop :=
  ∃ part ∈ value.parts, ∃ type middle, middle.Sound core ∧ checkPart part type middle = (.error error, after)

/-- From a state on, the run only fails where a part of the value does, or at the limit. -/
def Blames (core : Nat) (options : Options) (checkPart : Value → SchemaId → Run Outcome) (value : Value)
    (base : ResolverState) (run : Run α) : Prop :=
  ∀ state, base ≤ state → state.Sound core → ∀ error after, run state = (.error error, after) →
    error = .depthLimitExceeded options.maxDepth ∨ PartFails core checkPart value error after

namespace Blames

variable {run first : Run α} {next : α → Run β} {answer : α}

theorem pure (answer : α) : Blames core options checkPart value base (pure answer : Run α) :=
  fun _ _ _ _ _ ran => nomatch ran

theorem limit :
    Blames core options checkPart value base (Run.fail (.depthLimitExceeded options.maxDepth) : Run α) := by
  intro _ _ _ _ _ ran
  cases ran
  exact .inl rfl

/-- What follows has to be looked at for the answers of the first part only. -/
theorem bind_of (stable : Stable core first) (part : Blames core options checkPart value base first)
    (rest : ∀ state, base ≤ state → state.Sound core → ∀ answer after, first state = (.ok answer, after) →
      Blames core options checkPart value base (next answer)) :
    Blames core options checkPart value base (first >>= next) := by
  intro state grown sound error after ran
  cases begun : first state with
  | mk outcome middle =>
      cases outcome with
      | error failed =>
          cases (bind_error begun).symm.trans ran
          exact part state grown sound _ _ begun
      | ok answer =>
          have grows := stable.grows sound begun
          exact rest state grown sound answer middle begun middle (le_trans grown grows.grown) grows.sound error
            after ((bind_ok begun).symm.trans ran)

/-- The first part has a settled answer. -/
theorem bind_lasts (lasts : Lasts first base answer)
    (rest : Blames core options checkPart value base (next answer)) :
    Blames core options checkPart value base (first >>= next) := by
  intro state grown sound error after ran
  exact rest state grown sound error after ((bind_ok (lasts state grown)).symm.trans ran)

end Blames

/-- Runs that are stable and leave errors to the parts. -/
def blaming (core : Nat) (options : Options) (checkPart : Value → SchemaId → Run Outcome) (value : Value)
    (base : ResolverState) : Congruence where
  Related run _ := Stable core run ∧ Blames core options checkPart value base run
  pure answer := ⟨.pure answer, .pure answer⟩
  bind part rest := ⟨part.1.bind fun answer => (rest answer).1,
    .bind_of part.1 part.2 fun _ _ _ answer _ _ => (rest answer).2⟩

theorem parts_blamed (parts : ∀ part id, Stable core (checkPart part id)) (types : List SchemaId) :
    RelatedParts (blaming core options checkPart value base) value.parts types checkPart checkPart :=
  fun part listed id _ => ⟨parts part id, fun state _ sound _ _ ran =>
    .inr ⟨part, listed, id, state, sound, ran⟩⟩

section

variable (parts : ∀ part id, Stable core (checkPart part id))

include parts

theorem checkFlat_blames (shape : Shape) :
    Blames core options checkPart value base (checkFlat options checkPart value tolerated shape) := by
  cases value with
  | object object =>
      exact (checkShape_related (blaming core options checkPart (.object object) base)
        (parts_blamed parts shape.types)).2
  | _ => exact .pure _

/-- The rule of a node without members, shape or target. -/
theorem checkWithin_single_blames (found : base.arena.get? id = some node) (concrete : node.IsConcrete)
    (single : ¬ node.Combines) (unlike : node.isInterfaceLike = false) (steps : Nat) :
    Blames core options checkPart value base (checkWithin options checkPart value steps id) := by
  cases steps with
  | zero => exact .limit
  | succ steps =>
      refine .bind_lasts (.node found) ?_
      cases node with
      | array element => exact (checkArray_related (blaming core options checkPart value base) (parts_blamed parts _)).2
      | tuple elements optionalStart =>
          exact (checkTuple_related (blaming core options checkPart value base) optionalStart (parts_blamed parts _)).2
      | reference _ | indexedAccess _ _ => exact concrete.elim
      | union _ | intersection _ => exact (single trivial).elim
      | interface _ _ _ | mapped _ _ => cases unlike
      | _ => exact .pure _

end

theorem resolve_blames (resolves : Resolves base id target) (next : SchemaId → Run β)
    (rest : Blames core options checkPart value base (next target)) :
    Blames core options checkPart value base (Resolver.resolve options.maxDepth id >>= next) := by
  cases depth : options.maxDepth with
  | zero =>
      intro state _ _ error after ran
      cases ran
      exact .inl (depth ▸ rfl)
  | succ limit => exact .bind_lasts (resolves.lasts _ _) rest

theorem distribute_blames (undistributed : Undistributed base id) (next : Option SchemaId → Run β)
    (rest : Blames core options checkPart value base (next none)) :
    Blames core options checkPart value base (Resolver.distribute options.maxDepth id >>= next) := by
  intro state grown sound error after ran
  rcases (undistributed.later grown).again sound options.maxDepth options.maxDepth with same | ⟨last, limited⟩
  · exact rest state grown sound error after ((bind_ok same).symm.trans ran)
  · cases (bind_error limited).symm.trans ran
    exact .inl rfl

section

variable (parts : ∀ part id, Stable core (checkPart part id)) (sound : base.Sound core)
  (expanded : ∀ branch ∈ visited, Expanded base visited branch)

include parts sound expanded

theorem checkInterfaceLike_blames (found : base.arena.get? id = some node) (like : node.isInterfaceLike = true)
    (inside : id ∈ visited)
    (unions : ∀ union ∈ visited, Resolves base union union →
      Blames core options checkPart value base (checkMember union)) :
    Blames core options checkPart value base
      (checkInterfaceLike options checkPart value tolerated checkMember id) := by
  rcases (expanded id inside).interfaceLike found like with ⟨union, entered, known⟩ | ⟨shape, declares⟩
  · refine .bind_lasts (distributeWithin_known known _ _) (unions union entered ?_)
    obtain ⟨_, node⟩ := sound.union_of_distribution known
    exact resolves_concrete node trivial
  · refine distribute_blames declares.undistributed _ ?_
    exact .bind_lasts (flattenWithin_known declares.shape _ _ []) (checkFlat_blames parts shape)

theorem checkMemberWithin_blames (resolves : Resolves base id target) (inside : target ∈ visited) (steps : Nat) :
    Blames core options checkPart value base
      (checkMemberWithin options checkPart value steps fields id) := by
  induction steps generalizing id target with
  | zero => exact .limit
  | succ steps ih =>
      obtain ⟨node, found, -⟩ := expanded target inside
      refine resolve_blames resolves _ (.bind_lasts (.node found) ?_)
      have members {ids : List SchemaId} (combines : node = .union ids ∨ node = .intersection ids) :
          ∀ member ∈ ids, (blaming core options checkPart value base).Related
            (checkMemberWithin options checkPart value steps fields member)
            (checkMemberWithin options checkPart value steps fields member) := by
        intro member listed
        obtain ⟨resolved, entered, leads⟩ := (expanded target inside).member_mem found combines listed
        exact ⟨checkMemberWithin_stable parts steps fields member, ih leads entered⟩
      cases node with
      | union ids => exact (checkAny_self (blaming core options checkPart value base) [] (members (.inl rfl))).2
      | intersection ids => exact (checkAll_self (blaming core options checkPart value base) 0 (members (.inr rfl))).2
      | interface _ _ _ | mapped _ _ =>
          exact checkInterfaceLike_blames parts sound expanded found rfl inside fun union entered self => ih self entered
      | _ =>
          exact checkWithin_single_blames parts found (resolves.target_concrete sound found) nofun rfl steps

end

/-- The members of a union or intersection, after the search that comes before them. -/
theorem members_blame (parts : ∀ part id, Stable core (checkPart part id)) (sound : base.Sound core)
    (found : base.arena.get? id = some node) {ids : List SchemaId}
    (combines : node = .union ids ∨ node = .intersection ids)
    (collects : Resolver.foreignFields options.maxDepth id base = (.ok fields, state)) (steps : Nat) :
    ∀ member ∈ ids, (blaming core options checkPart value state).Related
      (checkMemberWithin options checkPart value steps fields member)
      (checkMemberWithin options checkPart value steps fields member) := by
  have grows := (foreignFields_stable _ id).grows sound collects
  have known := (foreignFields_meets _ sound).answers _ _ collects
  obtain ⟨visited, start, resolves, inside, explored, -⟩ := grows.sound.foreign id fields known
  have found := ResolverState.get?_later found grows.grown
  have concrete : node.IsConcrete := by rcases combines with rfl | rfl <;> exact trivial
  obtain rfl := resolves.concrete found concrete
  intro member listed
  obtain ⟨resolved, entered, leads⟩ := (explored _ inside).1.member_mem found combines listed
  exact ⟨checkMemberWithin_stable parts steps fields member,
    checkMemberWithin_blames parts grows.sound (fun branch listed => (explored branch listed).1) leads entered steps⟩

/-- An error, the limit apart, comes from a part of the value, or whatever value is checked meets it
there. -/
def Faults (core : Nat) (options : Options) (state : ResolverState)
    (check : (Value → SchemaId → Run Outcome) → Value → Run Outcome) : Prop :=
  ∀ checkPart value, (∀ part id, Stable core (checkPart part id)) → ∀ error after,
    check checkPart value state = (.error error, after) →
      error = .depthLimitExceeded options.maxDepth ∨ PartFails core checkPart value error after ∨
        ∀ otherPart other, check otherPart other state = (.error error, after)

namespace Faults

variable {check : (Value → SchemaId → Run Outcome) → Value → Run Outcome} {first : Run α}
  {next : α → (Value → SchemaId → Run Outcome) → Value → Run Outcome}

theorem of_blames (blames : ∀ {checkPart value}, (∀ part id, Stable core (checkPart part id)) →
    Blames core options checkPart value state (check checkPart value)) (sound : state.Sound core) :
    Faults core options state check :=
  fun _ _ parts error after ran => (blames parts state (le_refl _) sound error after ran).imp_right .inl

/-- What comes first does not look at the value. -/
theorem bind (rest : ∀ answer middle, first state = (.ok answer, middle) → Faults core options middle (next answer)) :
    Faults core options state fun checkPart value => first >>= fun answer => next answer checkPart value := by
  intro checkPart value parts error after ran
  rcases of_bind_error ran with everyone | ⟨answer, middle, begun, onward⟩
  · exact .inr (.inr fun _ _ => everyone _)
  · refine (rest answer middle begun checkPart value parts error after onward).imp_right (.imp_right fun all => ?_)
    exact fun otherPart other => (bind_ok begun).trans (all otherPart other)

end Faults

theorem checkWithin_faults (options : Options) (steps : Nat) (sound : state.Sound core) (id : SchemaId) :
    Faults core options state fun checkPart value => checkWithin options checkPart value steps id := by
  induction steps generalizing id state with
  | zero => exact .of_blames (fun _ => .limit) sound
  | succ steps ih =>
      refine .bind fun node middle reads => ?_
      obtain ⟨found, rfl⟩ := of_node_ok reads
      cases node with
      | reference _ | indexedAccess _ _ =>
          exact .bind fun target middle resolves => ih ((resolve_stable _ id).grows sound resolves).sound target
      | union ids =>
          refine .bind fun fields middle collects => ?_
          have grows := (foreignFields_stable _ id).grows sound collects
          exact .of_blames (fun {checkPart value} parts => (checkAny_self (blaming core options checkPart value middle)
            [] (members_blame parts sound found (.inl rfl) collects steps)).2) grows.sound
      | intersection ids =>
          refine .bind fun fields middle collects => ?_
          have grows := (foreignFields_stable _ id).grows sound collects
          exact .of_blames (fun {checkPart value} parts => (checkAll_self (blaming core options checkPart value middle)
            0 (members_blame parts sound found (.inr rfl) collects steps)).2) grows.sound
      | interface _ _ _ | mapped _ _ =>
          refine .bind fun union middle distributes => ?_
          have grows := (distributeWithin_stable _ _ id).grows sound distributes
          cases union with
          | some union => exact ih grows.sound union
          | none =>
              refine .bind fun shape last flattens => ?_
              have grown := (flatten_stable _ id).grows grows.sound flattens
              exact .of_blames (fun parts => checkFlat_blames parts shape) grown.sound
      | array element =>
          exact .of_blames (fun {checkPart value} parts =>
            (checkArray_related (blaming core options checkPart value state) (parts_blamed parts _)).2) sound
      | tuple elements optionalStart =>
          exact .of_blames (fun {checkPart value} parts => (checkTuple_related (blaming core options checkPart value state)
            optionalStart (parts_blamed parts _)).2) sound
      | _ => exact .of_blames (fun _ => .pure _) sound

theorem check_fault (sound : state.Sound core) (failed : check options value id state = (.error error, after))
    (unlimited : error ≠ .depthLimitExceeded options.maxDepth) :
    (∃ part ∈ value.parts, ∃ type middle, middle.Sound core ∧
        check options part type middle = (.error error, after)) ∨
      ∀ other, check options other id state = (.error error, after) := by
  have stable (part : Value) (id : SchemaId) : Stable core (checkLevels options value.height part id) :=
    checkLevels_stable value.height part id
  rcases checkWithin_faults options options.maxDepth sound id _ value stable error after failed with
    limited | ⟨part, listed, type, middle, sound', here⟩ | all
  · exact (unlimited limited).elim
  · rw [checkLevels_eq_check (Value.height_part listed)] at here
    exact .inl ⟨part, listed, type, middle, sound', here⟩
  · exact .inr fun other => all (checkLevels options other.height) other

/-- Somewhere inside the value a schema was met with which every value fails. -/
theorem check_blames (sound : state.Sound core) (failed : check options value id state = (.error error, after))
    (unlimited : error ≠ .depthLimitExceeded options.maxDepth) :
    ∃ part type middle, value.Holds part ∧ middle.Sound core ∧
      ∀ other, check options other type middle = (.error error, after) := by
  induction height : value.height using Nat.strongRecOn generalizing value id state with
  | ind height ih =>
      rcases check_fault sound failed unlimited with ⟨part, listed, type, middle, sound', here⟩ | all
      · obtain ⟨inner, type, last, holds, sound', all⟩ :=
          ih part.height (height ▸ Value.height_part listed) sound' here rfl
        exact ⟨inner, type, last, .inside listed holds, sound', all⟩
      · exact ⟨value, id, state, .self value, sound, all⟩

/-- An identity that stands for no node is an error of its own. -/
theorem check_unknown (unknown : state.arena.get? id = none)
    (failed : check options value id state = (.error error, after)) :
    error = .depthLimitExceeded options.maxDepth ∨ error = .unknownId id := by
  unfold check checkLevels at failed
  cases depth : options.maxDepth with
  | zero =>
      rw [depth] at failed
      cases failed
      exact .inl (depth ▸ rfl)
  | succ limit =>
      rw [depth] at failed
      cases (bind_error (node_missing unknown)).symm.trans failed
      exact .inr rfl

/-- An error is the fault of a schema that was met, be it inside the value, and that no value satisfies
from then on: they all meet the error.  A value without parts can have met no other schema than the
one it was checked with.  The limit is no such fault. -/
theorem error_is_fault_of_schema (reachable : Reachable registry options validator)
    (issued : validator.Issued id) (failed : (validator.validateById value id).1 = .error error)
    (unlimited : ∀ limit, error ≠ .depthLimitExceeded limit) :
    (∃ part type, value.Holds part ∧ ∀ later, (validator.validateById value id).2.Leads later →
      ∀ other, (later.validateById other type).1 = .error error) ∧
    (value.parts = [] → ∀ later, validator.Leads later →
      ∀ other, (later.validateById other id).1 = .error error) := by
  have sound := reachable.sound
  have called := reachable.step (.validateById validator value id)
  have ran : check options value id validator.state =
      (.error error, (validator.validateById value id).2.state) := by
    rw [← reachable.options_eq]
    exact Prod.ext failed rfl
  have stays {reader later : Validator} {type : SchemaId} (readable : Reachable registry options reader)
      (issued : reader.Issued type) (leads : reader.Leads later) (other : Value)
      (here : (reader.validateById other type).1 = .error error) :
      (later.validateById other type).1 = .error error := by
    rcases validateById_later readable.sound issued leads other with ⟨limit, limited⟩ | same
    · exact (unlimited limit (Except.error.inj (here.symm.trans limited))).elim
    · exact same.symm.trans here
  constructor
  · obtain ⟨part, type, middle, holds, sound', all⟩ := check_blames sound ran (unlimited _)
    have again (other : Value) : check options other type (validator.validateById value id).2.state =
        (.error error, (validator.validateById value id).2.state) :=
      ((check_steady options other type).here middle sound').repeats error _ (all other)
    have present : (validator.validateById value id).2.Issued type := by
      cases found : (validator.validateById value id).2.state.arena.get? type with
      | some node => exact Arena.index_lt_size found
      | none =>
          rcases check_unknown found (again value) with limited | rfl
          · exact (unlimited _ limited).elim
          · have finds := check_finds options value id validator.state sound
              (fun _ listed => List.mem_singleton.mp listed ▸ issued) type
            exact (finds (congrArg Prod.fst ran)).elim
    refine ⟨part, type, holds, fun later leads other => stays called present leads other ?_⟩
    have here := again other
    rw [← called.options_eq] at here
    exact congrArg Prod.fst here
  · intro bare later leads other
    rcases check_fault sound ran (unlimited _) with ⟨part, listed, -⟩ | all
    · rw [bare] at listed
      cases listed
    · refine stays reachable issued leads other ?_
      have here := all other
      rw [← reachable.options_eq] at here
      exact congrArg Prod.fst here

/-- A list of something that is not there. -/
def dangling : Registry :=
  Registry.empty.insert "m" "A" (.array (.reference "m/Missing"))

theorem error_is_fault_of_schema_dangling :
    let validator := ofRegistry dangling { maxDepth := 8 }
    let list : Value := .array [.null]
    (validator.validateById list ⟨3⟩).1 = .error (.missingTarget "m/Missing") ∧
      (∃ part type, list.Holds part ∧ ∀ later, (validator.validateById list ⟨3⟩).2.Leads later →
        ∀ other, (later.validateById other type).1 = .error (.missingTarget "m/Missing")) ∧
      ∀ other, (validator.validateById other ⟨2⟩).1 = .error (.missingTarget "m/Missing") := by
  intro validator list
  have reachable : Reachable dangling { maxDepth := 8 } validator := .refl
  have failed : (validator.validateById list ⟨3⟩).1 = .error (.missingTarget "m/Missing") := rfl
  have failed' : (validator.validateById .null ⟨2⟩).1 = .error (.missingTarget "m/Missing") := rfl
  exact ⟨failed, (error_is_fault_of_schema reachable (by decide) failed nofun).1,
    (error_is_fault_of_schema reachable (by decide) failed' nofun).2 rfl validator .refl⟩

/-- The list fails with the error, and without items it is accepted. -/
theorem error_depends_on_value :
    let validator := ofRegistry dangling {}
    (validator.validate (.array [.null]) "m" "A").1 = .error (.missingTarget "m/Missing") ∧
      (validator.validateById (.array [.null]) ⟨3⟩).1 = .error (.missingTarget "m/Missing") ∧
      (validator.validate (.array []) "m" "A").1 = .ok .success ∧
      (validator.validateById (.array []) ⟨3⟩).1 = .ok .success :=
  ⟨rfl, rfl, rfl, rfl⟩

/-- A union that contains itself runs into the limit only with what its other members reject. -/
example :
    let validator := ofRegistry (Registry.empty.insert "m" "A"
      (.union (Branch.numbered [.boolean, .reference "m/A"]))) { maxDepth := 8 }
    (validator.validate (.boolean true) "m" "A").1 = .ok .success ∧
      (validator.validate .null "m" "A").1 = .error (.depthLimitExceeded 8) :=
  ⟨rfl, rfl⟩

end Conform.Validator
