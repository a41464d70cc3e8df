import Conform.Proofs.Resolver.KnownShapes
import Conform.Proofs.Validator.Transparency
import Conform.Proofs.Validator.Yields

/-! Flattened schemas.  A plain interface that declares the shape of a schema has
the same shape, and values are accepted and rejected by both alike. -/

namespace Conform.Validator

open Run Resolver

variable {core steps : Nat} {registry : Registry} {options : Options} {validator before after : Validator}
  {state last : ResolverState} {value : Value} {id copy : SchemaId} {shape flat : Shape} {node : Node}
  {checkPart : Value → SchemaId → Run Outcome} {checkMember : SchemaId → Run Outcome}
  {tolerated : Option ForeignFields}

theorem checkInterfaceLike_flat (undistributed : Undistributed state id) (sound : state.Sound core)
    (flattens : Resolver.flatten options.maxDepth id state = (.ok shape, last)) :
    IsLimited (checkInterfaceLike options checkPart value tolerated checkMember id state).1 ∨
      checkInterfaceLike options checkPart value tolerated checkMember id state =
        checkFlat options checkPart value tolerated shape last := by
  rcases undistributed.again sound options.maxDepth options.maxDepth with none | ⟨stuck, limited⟩
  · exact .inr ((bind_ok none).trans (bind_ok flattens))
  · exact .inl ⟨_, by rw [checkInterfaceLike, Resolver.distribute, bind_error limited]⟩

theorem checkWithin_like (found : state.arena.get? id = some node) (like : node.isInterfaceLike = true) :
    checkWithin options checkPart value (steps + 1) id state =
      checkInterfaceLike options checkPart value none (checkWithin options checkPart value steps) id
        state := by
  refine (bind_ok (node_apply found)).trans ?_
  cases node <;> first | rfl | cases like

theorem checkWithin_known (sound : state.Sound core) (known : state.shapes.find? id = some shape)
    (found : state.arena.get? id = some node) (like : node.isInterfaceLike = true) (steps : Nat) :
    IsLimited (checkWithin options checkPart value steps id state).1 ∨
      checkWithin options checkPart value steps id state =
        checkFlat options checkPart value none shape state := by
  cases steps with
  | zero => exact .inl ⟨_, rfl⟩
  | succ steps =>
      rw [checkWithin_like found like]
      exact checkInterfaceLike_flat (undistributed_of_known sound known node found like) sound
        (flattenWithin_known known _ _ []).now

/-- A schema whose shape is known is checked as that shape. -/
theorem checkWithin_flattened (sound : state.Sound core) (known : state.shapes.find? id = some shape)
    (steps : Nat) :
    IsLimited (checkWithin options checkPart value steps id state).1 ∨
      checkWithin options checkPart value steps id state =
        checkFlat options checkPart value none shape state := by
  obtain ⟨older, entry, accounted⟩ := shape_sound sound known
  cases accounted.source sound with
  | interface found => exact checkWithin_known sound known found rfl steps
  | mapped found => exact checkWithin_known sound known found rfl steps
  | @follows node targetNode target found onward resolves there like older_known =>
      cases steps with
      | zero => exact .inl ⟨_, rfl⟩
      | succ steps =>
          have target_known := shape_of_suffix sound ((List.suffix_cons _ _).trans entry) older_known
          have follows : checkWithin options checkPart value (steps + 1) id state =
              (do let target ← Resolver.resolve options.maxDepth id
                  checkWithin options checkPart value steps target : Run Outcome) state := by
            refine (bind_ok (node_apply found)).trans ?_
            cases node <;> first | rfl | exact (onward trivial).elim
          rw [follows]
          cases depth : options.maxDepth with
          | zero => exact .inl ⟨_, rfl⟩
          | succ limit =>
              rw [Resolver.resolve, bind_ok (resolves.lasts (limit + 1) limit).now]
              exact checkWithin_known sound target_known there like steps

/-- A plain interface with distinct names is checked as its own shape. -/
theorem check_plain (sound : state.Sound core)
    (plain : state.arena.get? copy = some (.interface flat.properties flat.index []))
    (distinct : flat.names.Nodup) (options : Options) (value : Value) :
    IsLimited (check options value copy state).1 ∨
      ∃ last, state ≤ last ∧ last.Sound core ∧ check options value copy state =
        checkFlat options (checkLevels options value.height) value none flat last := by
  simp only [check, checkLevels]
  cases depth : options.maxDepth with
  | zero => exact .inl ⟨_, rfl⟩
  | succ limit =>
      have flattens : Resolver.flatten options.maxDepth copy state =
          (.ok flat, { state with shapes := (state.shapes.settle copy flat).2 }) := by
        rw [depth]
        exact flattenWithin_plain sound plain distinct (limit + 1) limit
      have stable : Stable core (Resolver.flatten options.maxDepth copy) := flatten_stable _ copy
      have grows := stable.grows sound flattens
      rw [checkWithin_like plain rfl]
      exact (checkInterfaceLike_flat (.interface plain) sound flattens).imp_right
        fun same => ⟨_, grows.grown, grows.sound, same⟩

/-- The shape is checked alike in a state that has grown. -/
theorem checkFlat_outcome (sound : state.Sound core) (sound' : last.Sound core) (grown : state ≤ last)
    (issued : ∀ type ∈ flat.types, type.index < state.arena.size) (levels : Nat) :
    IsLimited (checkFlat options (checkLevels options levels) value tolerated flat state).1 ∨
      (checkFlat options (checkLevels options levels) value tolerated flat state).1 =
        (checkFlat options (checkLevels options levels) value tolerated flat last).1 := by
  cases value with
  | object object =>
      have linked : (Agreement.World.same state last).Linked core := .same sound sound' grown
      exact (Agreement.checkShape_concurs levels tolerated linked
        (.refl fun type listed => ⟨rfl, issued type listed⟩)).outcome
  | _ => exact .inr rfl

theorem check_flattened (sound : state.Sound core) (known : state.shapes.find? id = some flat)
    (plain : state.arena.get? copy = some (.interface flat.properties flat.index []))
    (options : Options) (value : Value) :
    IsLimited (check options value id state).1 ∨ IsLimited (check options value copy state).1 ∨
      (check options value id state).1 = (check options value copy state).1 := by
  obtain ⟨older, -, accounted⟩ := shape_sound sound known
  have declared : IsLimited (check options value id state).1 ∨ check options value id state =
      checkFlat options (checkLevels options value.height) value none flat state :=
    checkWithin_flattened sound known options.maxDepth
  rcases declared with limited | declared
  · exact .inl limited
  rcases check_plain sound plain accounted.distinct options value with limited | ⟨last, grown, sound', copied⟩
  · exact .inr (.inl limited)
  rw [declared, copied]
  exact (checkFlat_outcome sound sound' grown (shape_issued sound known) value.height).imp_right .inr

theorem bind_stays {α β : Type} {first : Run α} {next : α → Run β} (part : (first state).2 = state)
    (rest : ∀ answer, (next answer state).2 = state) : ((first >>= next) state).2 = state := by
  cases ran : first state with
  | mk answer middle =>
      rw [ran] at part
      cases part
      cases answer with
      | error error => rw [bind_error ran]
      | ok answer => rw [bind_ok ran, rest]

theorem lookup_stays (path symbol : String) (state : ResolverState) :
    (Resolver.lookup path symbol state).2 = state := by
  refine bind_stays rfl fun present => ?_
  cases present with
  | false => rfl
  | true => exact bind_stays rfl fun found => by cases found <;> rfl

theorem flatten_stays (id : SchemaId) (state : ResolverState) :
    (Resolver.flatten 0 id state).2 = state := by
  simp only [Resolver.flatten, flattenWithin, unlessKnown, bind_ok (read_apply _)]
  cases state.shapes.find? id <;> rfl

theorem distribute_stays (id : SchemaId) (state : ResolverState) :
    (Resolver.distribute 0 id state).2 = state := by
  simp only [Resolver.distribute, distributeWithin, bind_ok (read_apply _)]
  cases state.distributions.find? id <;> rfl

theorem foreignFields_stays (id : SchemaId) (state : ResolverState) :
    (Resolver.foreignFields 0 id state).2 = state := by
  simp only [Resolver.foreignFields, bind_ok (read_apply _)]
  cases state.foreign.find? id <;> rfl

theorem check_stays (depth : options.maxDepth = 0) (value : Value) (id : SchemaId)
    (state : ResolverState) : (check options value id state).2 = state := by
  simp only [check, checkLevels, depth]
  rfl

theorem Step.shapes_eq (step : Step before after) (depth : before.options.maxDepth = 0) :
    after.state.shapes = before.state.shapes := by
  cases step with
  | intern schema => rfl
  | alloc node => rfl
  | lookup path symbol => exact congrArg (·.shapes) (lookup_stays path symbol before.state)
  | resolve id => simp only [Validator.resolve, depth]; rfl
  | isInterfaceLike id => simp only [Validator.isInterfaceLike, depth]; rfl
  | flatten id =>
      simp only [Validator.flatten, depth]
      exact congrArg (·.shapes) (flatten_stays id before.state)
  | distribute id =>
      simp only [Validator.distribute, depth]
      exact congrArg (·.shapes) (distribute_stays id before.state)
  | foreignFields id =>
      simp only [Validator.foreignFields, depth]
      exact congrArg (·.shapes) (foreignFields_stays id before.state)
  | validateById value id => exact congrArg (·.shapes) (check_stays depth value id before.state)
  | validate value path symbol =>
      exact congrArg (·.shapes) (bind_stays (lookup_stays path symbol before.state) fun id =>
        check_stays depth value id before.state)

theorem Reachable.shapes_eq (reachable : Reachable registry options validator)
    (depth : options.maxDepth = 0) : validator.state.shapes = .empty := by
  have unread : validator.options.maxDepth = 0 → validator.state.shapes = .empty := by
    induction reachable with
    | refl => exact fun _ => rfl
    | @tail middle last leads step ih =>
        intro depth
        have same := (Reachable.options_eq leads).trans (Reachable.options_eq (leads.tail step)).symm
        rw [step.shapes_eq (same ▸ depth)]
        exact ih (same ▸ depth)
  exact unread (reachable.options_eq ▸ depth)

/-- The same answer, unless one of the two is that the limit is exceeded. -/
def SameUnlessLimited {α : Type} (answer other : Except SchemaError α) : Prop :=
  IsLimited answer ∨ IsLimited other ∨ answer = other

theorem SameUnlessLimited.symm {α : Type} {answer other : Except SchemaError α}
    (same : SameUnlessLimited answer other) : SameUnlessLimited other answer := by
  rcases same with limited | limited | same
  · exact .inr (.inl limited)
  · exact .inl limited
  · exact .inr (.inr same.symm)

theorem SameUnlessLimited.of_later {α : Type} {earlier answer other : Except SchemaError α}
    (kept : IsLimited earlier ∨ earlier = answer) (same : SameUnlessLimited answer other) :
    SameUnlessLimited earlier other := by
  rcases kept with limited | rfl
  · exact .inl limited
  · exact same

theorem validateById_flattened (sound : validator.state.Sound core)
    (known : validator.state.shapes.find? id = some flat)
    (plain : validator.state.arena.get? copy = some (.interface flat.properties flat.index []))
    (value : Value) :
    SameUnlessLimited (validator.validateById value id).1 (validator.validateById value copy).1 :=
  check_flattened sound known plain validator.options value

theorem Reachable.flattened (reachable : Reachable registry options validator)
    (flattens : validator.flatten id = (.ok flat, after)) : Reachable registry options after := by
  have reached := reachable.step (.flatten validator id)
  rwa [flattens] at reached

theorem flatten_known (reachable : Reachable registry options validator)
    (flattens : validator.flatten id = (.ok flat, after)) :
    after.state.shapes.find? id = some flat :=
  ((flattenWithin_meets _ _ [] id _ reachable.sound).answers _ _ (of_perform flattens)).1

/-- Only with a step to take there is a shape to be found. -/
theorem flatten_takes_steps (reachable : Reachable registry options validator)
    (flattens : validator.flatten id = (.ok flat, after)) : ∃ limit, options.maxDepth = limit + 1 := by
  cases depth : options.maxDepth with
  | succ limit => exact ⟨limit, rfl⟩
  | zero =>
      have known := flatten_known reachable flattens
      rw [(reachable.flattened flattens).shapes_eq depth] at known
      cases known

/-- The names of a shape are distinct.  A plain interface that declares the shape
has it, too, and values are checked against both with the same outcome. -/
theorem flattening_keeps_meaning (reachable : Reachable registry options validator)
    (flattens : validator.flatten id = (.ok flat, after)) :
    let copied := after.alloc (.interface flat.properties flat.index [])
    flat.names.Nodup ∧ ∀ first, copied.2.Leads first →
      (first.flatten copied.1).1 = .ok flat ∧
        ∀ second, first.Leads second → ∀ value,
          SameUnlessLimited (first.validateById value id).1
              (second.validateById value copied.1).1 ∧
            SameUnlessLimited (first.validateById value copied.1).1
              (second.validateById value id).1 := by
  intro copied
  have reached := reachable.flattened flattens
  have sound := reached.sound
  have known := flatten_known reachable flattens
  obtain ⟨older, -, accounted⟩ := shape_sound sound known
  refine ⟨accounted.distinct, fun first leads => ?_⟩
  have added : Step after copied.2 := by
    refine .alloc after _ fun child inside => ?_
    rw [Node.children, List.append_nil] at inside
    exact shape_issued sound known child inside
  have reached := (reached.step added).leads leads
  have advances := leads.advances (added.advances sound).sound
  have node : copied.2.state.arena.get? copied.1 = _ := Arena.get?_alloc_self after.state.arena _
  have grown := le_trans (added.advances sound).grown advances.grown
  refine ⟨?_, fun second leads' value => ?_⟩
  · obtain ⟨limit, depth⟩ := flatten_takes_steps reachable flattens
    have plain := flattenWithin_plain reached.sound (ResolverState.get?_later node advances.grown)
      accounted.distinct (limit + 1) limit
    rw [Validator.flatten, reached.options_eq, depth]
    exact congrArg Prod.fst plain
  · have further := leads'.advances advances.sound
    have compared : SameUnlessLimited (second.validateById value id).1
        (second.validateById value copied.1).1 :=
      validateById_flattened further.sound
        (ResolverState.shape_later known (le_trans grown further.grown))
        (ResolverState.get?_later node (le_trans advances.grown further.grown)) value
    have issued := shape_present advances.sound (ResolverState.shape_later known grown)
    have issued' := Arena.index_lt_size (ResolverState.get?_later node advances.grown)
    exact ⟨.of_later (validateById_later advances.sound issued leads' value) compared,
      .of_later (validateById_later advances.sound issued' leads' value) compared.symm⟩

/-- An interface, one that inherits from it and declares a name twice, and a pick
that repeats a key. -/
def inherited : Validator :=
  let parent := ((Validator.ofRegistry .empty { maxDepth := 8 }).intern
    (.interface [⟨0, "size", true, .number none⟩] none [])).2
  let child := (parent.alloc (.interface [⟨"name", false, ⟨0⟩⟩, ⟨"name", true, ⟨1⟩⟩] none [⟨3⟩])).2
  (child.alloc (.mapped (.pick ["size", "name", "size"]) ⟨4⟩)).2

theorem inherited_reachable : Reachable .empty { maxDepth := 8 } inherited := by
  refine Relation.ReflTransGen.refl.tail (.intern _ _) |>.tail (.alloc _ (.interface _ none [⟨3⟩]) ?_)
    |>.tail (.alloc _ (.mapped _ ⟨4⟩) ?_) <;> decide

theorem flattening_keeps_meaning_inherited :
    let flat : Shape := ⟨[⟨"size", true, ⟨2⟩⟩, ⟨"name", false, ⟨0⟩⟩], none⟩
    let copied := (inherited.flatten ⟨5⟩).2.alloc (.interface flat.properties flat.index [])
    inherited.flatten ⟨5⟩ = (.ok flat, (inherited.flatten ⟨5⟩).2) ∧ flat.names.Nodup ∧
      (copied.2.flatten copied.1).1 = .ok flat ∧
      SameUnlessLimited (copied.2.validateById (.object .empty) ⟨5⟩).1
        (copied.2.validateById (.object .empty) copied.1).1 := by
  intro flat copied
  have flattens : inherited.flatten ⟨5⟩ = (.ok flat, (inherited.flatten ⟨5⟩).2) := rfl
  obtain ⟨distinct, later⟩ := flattening_keeps_meaning inherited_reachable flattens
  obtain ⟨again, same⟩ := later copied.2 .refl
  exact ⟨flattens, distinct, again, (same copied.2 .refl (.object .empty)).1⟩

end Conform.Validator
