import Conform.Proofs.Validator.Combinators
import Conform.Proofs.Validator.Intersection

/-! Picked keys.  A pick accepts the objects that have nothing but its keys and, under each of
them, what the shape behind it asks for. -/

namespace Conform.Validator

open Run Resolver

variable {core : Nat} {registry : Registry} {options : Options} {validator : Validator}
  {state : ResolverState} {id source type : SchemaId} {value part : Value} {object : Object}
  {key : String} {keys : List String} {base shape : Shape} {property : Property} {optional : Bool}
  {outcome : Outcome} {checkPart : Value → SchemaId → Run Outcome}
  {accepts : Value → SchemaId → Prop}

/-- A value that counts as none.  `null` does without strict null checks, where leaving out is
allowed. -/
def LeftOut (options : Options) (optional : Bool) (value : Value) : Prop :=
  value = .undefined ∨ value = .null ∧ optional = true ∧ options.strictNullChecks = false

/-- An object has under a key what the shape asks for, or leaves it out as it may. -/
inductive Provides (leftOut : Bool → Value → Prop) (accepts : Value → SchemaId → Prop)
    (base : Shape) (object : Object) (key : String) : Prop
  | omitted {type : SchemaId} (offers : Offers base key true type)
      (none : ∀ value, object.get? key = some value → leftOut true value)
  | accepted {optional : Bool} {type : SchemaId} {value : Value} (offers : Offers base key optional type)
      (own : object.get? key = some value) (present : ¬ leftOut optional value)
      (accepted : accepts value type)

theorem offers_of_project? (found : base.project? key = some property) :
    Offers base key property.optional property.type := by
  unfold Shape.project? at found
  cases declared : base.property? key with
  | some present =>
      simp only [declared, Option.some.injEq] at found
      subst found
      exact .declared declared
  | none =>
      cases signed : base.index with
      | none => simp [declared, signed] at found
      | some signature =>
          simp only [declared, signed] at found
          split at found
          · cases found
            exact .signed declared signed
          · contradiction

theorem Offers.projected (offers : Offers base key optional type)
    (found : base.project? key = some property) :
    property.optional = optional ∧ property.type = type := by
  cases offers with
  | declared declared =>
      simp only [Shape.project?, declared, Option.some.injEq] at found
      simp [found]
  | signed undeclared signed =>
      simp only [Shape.project?, undeclared, signed] at found
      split at found
      · cases found
        simp
      · contradiction

theorem isAbsent_iff : isAbsent options optional value = true ↔ LeftOut options optional value := by
  cases value <;> simp [isAbsent, LeftOut]

theorem provides_of_passes (found : base.project? property.name = some property)
    (passes : Passes options checkPart object state property) :
    Provides (LeftOut options) (fun part type => Yields (checkPart part type) state .success) base
      object property.name := by
  have offers := offers_of_project? found
  simp only [Passes, presentValue] at passes
  cases own : object.get? property.name with
  | none =>
      simp only [own, Option.filter_none] at passes
      rw [passes] at offers
      exact .omitted offers (by simp [own])
  | some part =>
      by_cases absent : isAbsent options property.optional part = true
      · simp only [own, Option.filter, absent] at passes
        rw [passes, isAbsent_iff] at absent
        rw [passes] at offers
        exact .omitted offers (by simpa [own] using absent)
      · simp only [own, Option.filter, absent] at passes
        rw [isAbsent_iff] at absent
        exact .accepted offers own absent passes

theorem not_provides_of_refuses (found : base.project? property.name = some property)
    (refuses : Refuses options checkPart object state property)
    (refused : ∀ part failure, object.get? property.name = some part →
      ¬ LeftOut options property.optional part →
      Yields (checkPart part property.type) state (.failure failure) → ¬ accepts part property.type) :
    ¬ Provides (LeftOut options) accepts base object property.name := by
  intro provides
  simp only [Refuses, presentValue] at refuses
  cases provides with
  | omitted offers absent =>
      have optional := (offers.projected found).1
      cases own : object.get? property.name with
      | none =>
          simp only [own, Option.filter_none] at refuses
          cases optional.symm.trans refuses
      | some part =>
          have left_out := isAbsent_iff.mpr (absent part own)
          simp only [own, Option.filter, optional, left_out] at refuses
          cases refuses
  | accepted offers own present accepted =>
      obtain ⟨rfl, rfl⟩ := offers.projected found
      have counts := present
      rw [← isAbsent_iff] at counts
      simp only [own, Option.filter, counts] at refuses
      obtain ⟨failure, here⟩ := refuses
      exact refused _ failure own present here accepted

/-- A check of what has a shape is one against the shape. -/
theorem flat_of_flattens {node : Node} (reachable : Reachable registry options validator)
    (found : validator.state.arena.get? id = some node) (like : node.isInterfaceLike = true)
    (flattens : (validator.flatten id).1 = .ok shape) (grown : validator.state ≤ state)
    (sound : state.Sound (coreSize registry)) (yields : Yields (check options value id) state outcome) :
    Declares state id shape ∧
      Yields (checkFlat options (checkLevels options value.height) value none shape) state outcome := by
  obtain ⟨last, beyond, last_sound, known⟩ :=
    exists_known reachable grown sound [(id, shape)] (by simp [flattens])
  have here := ResolverState.get?_later found grown
  have there := ResolverState.get?_later here beyond
  have known := known (id, shape) (by simp)
  have undistributed := undistributed_of_known last_sound known node there like
  have parts (part : Value) (id : SchemaId) : Stable (coreSize registry)
      (checkLevels options value.height part id) :=
    checkLevels_stable _ part id
  obtain ⟨_, _, _, _, -, resolves, found', -, examines⟩ := checkWithin_examines parts sound yields
  cases resolves.concrete here (Node.concrete_of_like like)
  cases here.symm.trans found'
  obtain ⟨_, found'', decides⟩ := examines.decided here
  cases here.symm.trans found''
  rcases decides like with ⟨union, distributed⟩ | ⟨shape', declares⟩
  · have distributed := ResolverState.distribution_later distributed beyond
    cases (last_sound.undistributed_unknown undistributed).symm.trans distributed
  · cases (ResolverState.shape_later declares.shape beyond).symm.trans known
    exact ⟨declares, examines.of_declares here sound declares⟩

/-- The shape of a pick is picked from the shape behind it. -/
theorem picked_of_flattens (reachable : Reachable registry options validator)
    (node : validator.state.arena.get? id = some (.mapped (.pick keys) source))
    (flattens : (validator.flatten source).1 = .ok base) (picks : (validator.flatten id).1 = .ok shape) :
    base.pick keys = .ok shape := by
  obtain ⟨last, grown, sound, known⟩ := exists_known reachable (le_refl _) reachable.sound
    [(source, base), (id, shape)] (by simp [flattens, picks])
  obtain ⟨resolved, behind, resolves, settled, made⟩ :=
    mapped_known sound (ResolverState.get?_later node grown) (known (id, shape) (by simp))
  obtain ⟨resolved', resolves', settled'⟩ := known_resolved sound (known (source, base) (by simp))
  cases resolves.unique resolves'
  cases settled.symm.trans settled'
  exact combine?_pick.mp made

/-- After the properties of a pick only the other keys count. -/
theorem remaining_of_pick (picks : base.pick keys = .ok shape)
    (yields : Yields (checkRemaining checkPart object shape none) state outcome) :
    outcome = checkExcess (fun key => key ∈ keys) object.keys := by
  have declares (key : String) : shape.declares key = decide (key ∈ keys) := by
    by_cases listed : key ∈ keys
    · obtain ⟨property, inside, rfl⟩ := Shape.exists_picked picks listed
      simp [listed, Shape.declares, Shape.property?,
        (Shape.findProperty_eq_some_iff (Shape.distinct_pick picks)).mpr inside]
    · simp [listed, Shape.declares, Shape.property?_pick picks key]
  have excess : checkExcess (fun key => shape.declares key) object.keys = outcome := by
    simpa [Yields, checkRemaining, Shape.index_pick picks] using yields
  simp only [← excess, declares]

/-- The check of a pick, where the checks of the parts are judged as they come out. -/
theorem picked_accepts (parts : ∀ part id, Stable core (checkPart part id)) (sound : state.Sound core)
    (picks : base.pick keys = .ok shape)
    (judged : ∀ {key optional type part own}, key ∈ keys → Offers base key optional type →
      object.get? key = some part → ¬ LeftOut options optional part →
      Yields (checkPart part type) state own → (accepts part type ↔ own = .success))
    (flat : Yields (checkFlat options checkPart (.object object) none shape) state outcome) :
    (outcome = .success ↔ (∀ key ∈ object.keys, key ∈ keys) ∧
        ∀ key ∈ keys, Provides (LeftOut options) accepts base object key) ∧
      ((∀ key ∈ keys, Provides (LeftOut options) accepts base object key) →
        ∀ extra, object.keys.find? (fun key => key ∉ keys) = some extra →
          outcome = .failure (.within (.field extra) .unexpectedField)) := by
  have remaining : Stable core (checkRemaining checkPart object shape none) :=
    checkRemaining_stable parts shape none
  simp only [checkFlat, checkShape, Shape.index_pick picks] at flat
  rcases checkProperties_yields parts sound remaining flat with ⟨rejected, property, listed, refuses⟩ |
    ⟨passes, onward⟩
  · obtain ⟨inside, found⟩ := (Shape.mem_pick_iff picks).mp listed
    have missing : ¬ Provides (LeftOut options) accepts base object property.name := by
      refine not_provides_of_refuses found refuses fun part failure own present here accepted => ?_
      cases (judged inside (offers_of_project? found) own present here).mp accepted
    constructor
    · exact iff_of_false rejected fun holds => missing (holds.2 property.name inside)
    · exact fun each => (missing (each property.name inside)).elim
  · have each : ∀ key ∈ keys, Provides (LeftOut options) accepts base object key := by
      intro key listed
      obtain ⟨property, inside, rfl⟩ := Shape.exists_picked picks listed
      have found := ((Shape.mem_pick_iff picks).mp inside).2
      cases provides_of_passes found (passes property inside) with
      | omitted offers none => exact .omitted offers none
      | accepted offers own present accepted =>
          exact .accepted offers own present ((judged listed offers own present accepted).mpr rfl)
    have ends := remaining_of_pick picks onward
    constructor
    · rw [and_iff_left each, ends]
      exact checkExcess_success.trans (by simp only [decide_eq_true_eq])
    · intro _ extra first
      rw [ends, checkExcess, ← List.find?_congr fun key _ => decide_not, first]

/-- A pick of a shape accepts exactly the objects that have only its keys and provide what the
shape asks for under each.  Where nothing but the other keys is wrong, the first of them is
reported.  Any validator that the call has led to can tell what is provided.  One that has not been
through the call, such as the validator that is called, can tell as well where no entry that counts
takes it to the recursion limit. -/
theorem pick_accepts_exactly_its_keys {judge : Validator}
    (reachable : Reachable registry options validator)
    (node : validator.state.arena.get? id = some (.mapped (.pick keys) source))
    (flattens : (validator.flatten source).1 = .ok base) (picks : (validator.flatten id).1 = .ok shape)
    (answered : (validator.validateById (.object object) id).1 = .ok outcome)
    (tells : (validator.validateById (.object object) id).2.Leads judge ∨
      validator.Leads judge ∧ ∀ key ∈ keys, ∀ optional type part, Offers base key optional type →
        object.get? key = some part → ¬ LeftOut options optional part →
          ¬ IsLimited (judge.validateById part type).1) :
    let provides := Provides (LeftOut options)
      (fun part type => (judge.validateById part type).1 = .ok .success) base object
    (outcome = .success ↔ (∀ key ∈ object.keys, key ∈ keys) ∧ ∀ key ∈ keys, provides key) ∧
      ((∀ key ∈ keys, provides key) → ∀ extra, object.keys.find? (fun key => key ∉ keys) = some extra →
        outcome = .failure (.within (.field extra) .unexpectedField)) := by
  intro provides
  have picked := picked_of_flattens reachable node flattens picks
  obtain ⟨leads, state, replays⟩ := reachable.replays answered tells
  have judging := reachable.leads leads
  have advances := leads.advances reachable.sound
  have grown : validator.state ≤ state := le_trans advances.grown replays.grown
  obtain ⟨-, flat⟩ := flat_of_flattens reachable node rfl picks grown replays.sound replays.yields
  have parts (part : Value) (id : SchemaId) : Stable (coreSize registry)
      (checkLevels options (Value.object object).height part id) :=
    checkLevels_stable _ part id
  refine picked_accepts parts replays.sound picked (fun listed offers own present yields => ?_) flat
  have issued := advances.issued (flattened_issued reachable flattens _ offers.type_mem)
  rw [replays.answer judging issued fun unlimited => unlimited _ listed _ _ _ offers own present,
    check_part own yields, Except.ok.injEq]

/-- An interface that needs `null` under a key and inherits an index signature, and some of its
keys. -/
def nullable : Validator :=
  (Validator.ofRegistry .empty { strictNullChecks := false, maxDepth := 8 }).allocAll
    [.string, .literal .null, .interface [⟨"none", false, ⟨3⟩⟩] (some ⟨.string, ⟨2⟩⟩) [],
      .interface [⟨"note", true, ⟨2⟩⟩] none [⟨4⟩], .mapped (.pick ["note", "none", "alias"]) ⟨5⟩]

theorem nullable_reachable :
    Reachable .empty { strictNullChecks := false, maxDepth := 8 } nullable :=
  Reachable.allocAll .refl (by decide)

/-- What is provided is told before the call and after it. -/
theorem pick_accepts_exactly_its_keys_nullable :
    let base : Shape := ⟨[⟨"note", true, ⟨2⟩⟩, ⟨"none", false, ⟨3⟩⟩], some ⟨.string, ⟨2⟩⟩⟩
    let object : Object := ⟨[("none", .null), ("alias", .string "b")]⟩
    let used := (nullable.validateById (.object object) ⟨6⟩).2
    (nullable.flatten ⟨5⟩).1 = .ok base ∧
      (nullable.validateById (.object object) ⟨6⟩).1 = .ok .success ∧
      ∀ judge ∈ [nullable, used], ∀ key ∈ ["note", "none", "alias"],
        Provides (LeftOut nullable.options)
          (fun part type => (judge.validateById part type).1 = .ok .success) base object key := by
  intro base object used
  have flattens : (nullable.flatten ⟨5⟩).1 = .ok base := rfl
  have picks : (nullable.flatten ⟨6⟩).1 = .ok
      ⟨[⟨"note", true, ⟨2⟩⟩, ⟨"none", false, ⟨3⟩⟩, ⟨"alias", false, ⟨2⟩⟩], none⟩ := rfl
  have answered : (nullable.validateById (.object object) ⟨6⟩).1 = .ok .success := rfl
  have answers : ∀ type ∈ base.types, ∀ entry ∈ object.entries,
      (nullable.validateById entry.2 type).1.isOk = true := by decide
  have before := pick_accepts_exactly_its_keys nullable_reachable rfl flattens picks answered
    (.inr ⟨.refl, fun _ _ _ _ _ offers own _ =>
      not_isLimited (answers _ offers.type_mem _ (object.mem_of_get? own))⟩)
  have after := pick_accepts_exactly_its_keys nullable_reachable rfl flattens picks answered (.inl .refl)
  exact ⟨flattens, answered, List.forall_mem_cons.mpr
    ⟨(before.1.mp rfl).2, List.forall_mem_singleton.mpr (after.1.mp rfl).2⟩⟩

/-- Under a required key `null` does not count as left out, even where it does under an optional
one: the type decides about it. -/
theorem null_counts_under_required_key :
    let object : Object := ⟨[("none", .null), ("alias", .string "b")]⟩
    let used := (nullable.validateById (.object object) ⟨6⟩).2
    let base : Shape := ⟨[⟨"note", true, ⟨2⟩⟩, ⟨"none", false, ⟨3⟩⟩], some ⟨.string, ⟨2⟩⟩⟩
    Reachable .empty { strictNullChecks := false, maxDepth := 8 } nullable ∧
      nullable.state.arena.get? ⟨6⟩ = some (.mapped (.pick ["note", "none", "alias"]) ⟨5⟩) ∧
      (nullable.flatten ⟨5⟩).1 = .ok base ∧ (nullable.flatten ⟨6⟩).1.isOk = true ∧
      (nullable.validateById (.object object) ⟨6⟩).1 = .ok .success ∧
      ¬ ((nullable.validateById (.object object) ⟨6⟩).1 = .ok .success ↔
        (∀ key ∈ object.keys, key ∈ ["note", "none", "alias"]) ∧
          ∀ key ∈ ["note", "none", "alias"],
            Provides (fun _ value => value = .undefined ∨
                value = .null ∧ nullable.options.strictNullChecks = false)
              (fun part type => (used.validateById part type).1 = .ok .success) base object key) := by
  intro object used base
  have answered : (nullable.validateById (.object object) ⟨6⟩).1 = .ok .success := rfl
  refine ⟨nullable_reachable, rfl, rfl, rfl, answered, fun claimed => ?_⟩
  cases (claimed.mp answered).2 "none" (by decide) with
  | omitted offers _ =>
      have offered : base.project? "none" = some ⟨"none", false, ⟨3⟩⟩ := rfl
      cases (offers.projected offered).1
  | accepted _ own present _ =>
      cases own
      exact present (.inr ⟨rfl, rfl⟩)

end Conform.Validator
