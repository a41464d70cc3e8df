import Conform.Proofs.Resolver.Projected
import Conform.Proofs.Validator.Picking
import Conform.Proofs.Validator.Widening

/-! Indexed accesses.  What an access at a key stands for accepts the values that a pick of the
key accepts under it: an optional property is a union with `undefined` for the one, and may be
left out for the other. -/

namespace Conform.Validator

open Run Resolver

variable {core steps more limit : Nat} {registry : Registry} {options : Options}
  {validator one other : Validator} {state : ResolverState} {id target union object : SchemaId}
  {value : Value} {content : Object} {key : String} {outcome : Outcome} {shape base : Shape}
  {property : Property} {fields : ForeignFields} {members : List SchemaId}
  {checkPart : Value → SchemaId → Run Outcome}

/-- Fields that the shape declares itself make no difference. -/
theorem checkRemaining_own
    (contains : ∀ key, fields.contains key = true → shape.declares key = true)
    (permits : shape.index = none → ∀ key, fields.permits key = true → shape.declares key = true) :
    checkRemaining checkPart content shape (some fields) = checkRemaining checkPart content shape none := by
  have absorbed (holds : String → Bool) (own : ∀ key, holds key = true → shape.declares key = true) :
      (fun key => shape.declares key || holds key) = fun key => shape.declares key := by
    funext key
    cases declared : shape.declares key with
    | true => rfl
    | false => exact Bool.eq_false_iff.mpr fun held => Bool.false_ne_true (declared.symm.trans (own key held))
  unfold checkRemaining
  cases index : shape.index with
  | none =>
      simp only [Option.any_some, Option.any_none, Bool.or_false]
      rw [absorbed _ (permits index)]
  | some signature =>
      simp only [Option.any_some, Option.any_none, Bool.or_false]
      rw [absorbed _ contains]

/-- A branch is checked alike with the fields behind it and without any. -/
theorem checkFlat_own (sound : state.Sound core) (behind : Behind state fields target)
    (resolves : Resolves state target target) (declares : Declares state target shape) :
    checkFlat options checkPart value (some fields) shape = checkFlat options checkPart value none shape := by
  obtain ⟨visited, gathers, inside⟩ := behind
  have only {branch : SchemaId} {other : Shape} (listed : branch ∈ visited)
      (here : Declares state branch other) : other = shape := by
    obtain ⟨start, leads, path⟩ := inside branch listed other here
    cases leads.unique resolves
    cases Declares.ends declares sound path
    exact Option.some.inj (here.shape.symm.trans declares.shape)
  have remaining (content : Object) : checkRemaining checkPart content shape (some fields) =
      checkRemaining checkPart content shape none := by
    apply checkRemaining_own
    · intro key contained
      obtain ⟨branch, listed, other, here, named⟩ := (gathers.contains_iff key).mp contained
      exact only listed here ▸ named
    · intro unsigned key permitted
      obtain ⟨branch, listed, other, here, named | ⟨signature, signed, -⟩⟩ :=
        (gathers.permits_iff key).mp permitted
      · exact only listed here ▸ named
      · cases only listed here
        cases unsigned.symm.trans signed
  cases value with
  | object content => simp only [checkFlat, checkShape, remaining]
  | _ => rfl

section

variable (parts : ∀ part id, Stable core (checkPart part id)) (sound : state.Sound core)

include parts sound

/-- A schema that is accepted as a member is accepted alone, where nothing else is tolerated than
what it declares. -/
theorem checkWithin_of_checkMemberWithin (behind : Behind state fields id)
    (accepted : Yields (checkMemberWithin options checkPart value steps fields id) state .success)
    (yields : Yields (checkWithin options checkPart value more id) state outcome) :
    outcome = .success := by
  induction steps generalizing more id outcome with
  | zero => cases accepted
  | succ steps ih =>
      obtain ⟨_, target, node, same, resolves, found, here⟩ :=
        checkMemberWithin_yields parts sound accepted
      cases same
      obtain ⟨fewest, target', node', own, -, resolves', found', known, there⟩ :=
        checkWithin_examines parts sound yields
      cases Lasts.unique resolves resolves'
      cases found.symm.trans found'
      have again := resolves.again sound
      have behind := behind.resolved sound resolves
      have relaxing : Relaxing core Eq Eq state state checkPart checkPart := .self parts sound
      have alike : value.Resembles Eq value := .refl Eq.refl value
      have loose : options.Looser options := Options.Looser.refl options
      refine here.relaxes relaxing.settled rfl found found (checkMemberWithin_stable parts _ _)
        (checkMemberWithin_stable parts _ _) there (fun combines _ _ same => ?_)
        (fun {union _} distributes _ same => ?_) (fun declares shapes => ?_) fun nodes single unlike => ?_
      · have covers := surveys_cover sound (sound.foreign target own (known combines))
        exact checkMemberWithin_relaxes relaxing alike loose (behind.included covers) same
      · subst same
        intro here outcome there
        exact ih (behind.distributed sound again distributes) here there
      · cases shapes.eq_of fun _ _ _ same => same.symm
        rw [checkFlat_own sound behind again declares]
        exact .self _
      · exact checkWithin_single_relaxes relaxing alike loose found found nodes
          (resolves.target_concrete sound found) single unlike

/-- Schemas that resolve to one node are accepted alike. -/
theorem accepted_alike {other : SchemaId} (resolves : Resolves state id target)
    (resolves' : Resolves state other target)
    (accepted : Yields (checkWithin options checkPart value steps id) state .success)
    (yields : Yields (checkWithin options checkPart value more other) state outcome) :
    outcome = .success := by
  obtain ⟨_, accepted⟩ := checkWithin_resolved parts sound resolves accepted
  obtain ⟨_, yields⟩ := checkWithin_resolved parts sound resolves' yields
  exact checkWithin_relaxes (.self parts sound) (.refl Eq.refl value) (Options.Looser.refl options) rfl
    accepted _ yields

end

theorem checkWithin_literal {literal : Literal} (node : state.arena.get? id = some (.literal literal)) :
    checkWithin options checkPart value (steps + 1) id state =
      (.ok (checkLiteral options literal value), state) := by
  rw [checkWithin, bind_ok (node_apply node)]
  rfl

/-- The values that count as none are those that the literal `undefined` takes. -/
theorem isAbsent_eq : isAbsent options true value = matchesLiteral options .undefined value := by
  cases value <;> simp [isAbsent, matchesLiteral]

section

variable (parts : ∀ part id, Stable core (checkPart part id)) (sound : state.Sound core)

include parts sound

theorem accepted_undefined {member : SchemaId} (node : state.arena.get? union = some (.union members))
    (listed : member ∈ members) (literal : state.arena.get? member = some (.literal .undefined))
    (absent : isAbsent options true value = true)
    (yields : Yields (checkWithin options checkPart value steps union) state outcome) :
    outcome = .success := by
  have accepted : Yields (checkWithin options checkPart value 1 member) state .success := by
    rw [Yields, checkWithin_literal literal, checkLiteral, if_pos (isAbsent_eq ▸ absent)]
  exact accepted_member parts sound node listed accepted yields

/-- The literal `undefined` refuses what does not count as none. -/
theorem refused_undefined (literal : state.arena.get? id = some (.literal .undefined))
    (present : isAbsent options true value = false) :
    ¬ Yields (checkMemberWithin options checkPart value steps fields id) state .success := by
  intro accepted
  obtain ⟨fewer, target, node, -, resolves, found, own⟩ := checkMemberWithin_yields parts sound accepted
  cases resolves.concrete literal trivial
  cases literal.symm.trans found
  cases fewer with
  | zero => cases own
  | succ fewer =>
      have refused : Yields (checkWithin options checkPart value (fewer + 1) id) state .success := own
      rw [isAbsent_eq] at present
      rw [Yields, checkWithin_literal literal, checkLiteral, present] at refused
      cases refused

omit parts in
/-- Beside `undefined` a union declares what its other member does. -/
theorem behind_optional {type : SchemaId}
    (node : state.arena.get? union = some (.union [type, Arena.undefined]))
    (surveys : Surveys state union fields) : Behind state fields type := by
  obtain ⟨visited, start, resolves, -, explored, gathers⟩ := surveys
  cases resolves.concrete node trivial
  refine ⟨visited, gathers, fun branch listed shape declares => ?_⟩
  rcases Relation.ReflTransGen.cases_head (explored branch listed).2 with rfl | ⟨next, step, path⟩
  · exact (silent_of_node node rfl shape declares).elim
  cases step with
  | intersection node' _ _ => cases node.symm.trans node'
  | distributed known =>
      obtain ⟨_, _, node'⟩ := sound.mapped_of_distribution known
      cases node.symm.trans node'
  | union node' inside resolves =>
      cases node.symm.trans node'
      rcases List.mem_cons.mp inside with rfl | inside
      · exact ⟨next, resolves, path⟩
      · cases List.mem_singleton.mp inside
        cases resolves.concrete sound.undefined trivial
        rcases Relation.ReflTransGen.cases_head path with rfl | ⟨_, step, -⟩
        · exact (silent_of_node sound.undefined rfl shape declares).elim
        · cases step with
          | union node' _ _ | intersection node' _ _ => cases sound.undefined.symm.trans node'
          | distributed known =>
              obtain ⟨_, _, node'⟩ := sound.mapped_of_distribution known
              cases sound.undefined.symm.trans node'

/-- A union of a type with `undefined` accepts a value that counts as one like the type. -/
theorem optional_accepts_iff {type : SchemaId}
    (node : state.arena.get? union = some (.union [type, Arena.undefined]))
    (present : isAbsent options true value = false)
    (yields : Yields (checkWithin options checkPart value steps union) state outcome) {own : Outcome}
    (typed : Yields (checkWithin options checkPart value more type) state own) :
    outcome = .success ↔ own = .success := by
  constructor
  · rintro rfl
    obtain ⟨fewer, fields, known, here⟩ := checkWithin_union parts sound node yields
    rcases checkAny_yields (checkMemberWithin_stable parts _ _) sound here with
      ⟨-, member, listed, accepted⟩ | ⟨rejected, -⟩
    · rcases List.mem_cons.mp listed with rfl | listed
      · have behind := behind_optional sound node (sound.foreign union fields known)
        exact checkWithin_of_checkMemberWithin parts sound behind accepted typed
      · cases List.mem_singleton.mp listed
        exact (refused_undefined parts sound sound.undefined present accepted).elim
    · exact (rejected rfl).elim
  · rintro rfl
    exact accepted_member parts sound node (List.mem_cons_self ..) typed yields

end

section

variable (parts : ∀ part id, Stable core (checkPart part id)) (sound : state.Sound core)
  {projected : SchemaId} (resolves : Resolves state id target)
  (behind : Resolves state projected target) (projects : Projects core state base key projected)
  (found : base.project? key = some property)
  (yields : Yields (checkWithin options checkPart value steps id) state outcome)

include parts sound resolves behind projects found yields

/-- Where a property may be left out, the access accepts what counts as none. -/
theorem access_accepts_absent (optional : property.optional = true)
    (absent : isAbsent options true value = true) : outcome = .success := by
  obtain ⟨_, yields⟩ := checkWithin_resolved parts sound resolves yields
  cases projects with
  | required declared required =>
      simp only [Shape.project?, declared, Option.some.injEq] at found
      cases found
      cases required.symm.trans optional
  | included declared _ included =>
      obtain ⟨members, node, member, listed, literal⟩ := exists_undefined included.now
      cases behind.concrete node trivial
      exact accepted_undefined parts sound node listed literal absent yields
  | added declared _ _ _ node =>
      cases behind.concrete node trivial
      exact accepted_undefined parts sound node (by simp) sound.undefined absent yields
  | signature undeclared signed =>
      obtain ⟨same, -⟩ := (Offers.signed undeclared signed).projected found
      cases same.symm.trans optional

/-- A value that counts as one is accepted by the access if the type of the property accepts it. -/
theorem access_accepts_iff (present : isAbsent options property.optional value = false) {own : Outcome}
    (typed : Yields (checkWithin options checkPart value more property.type) state own) :
    outcome = .success ↔ own = .success := by
  have alike (same : property.type = projected) : outcome = .success ↔ own = .success := by
    subst same
    constructor
    · rintro rfl
      exact accepted_alike parts sound resolves behind yields typed
    · rintro rfl
      exact accepted_alike parts sound behind resolves typed yields
  cases projects with
  | required declared _ | included declared _ _ => exact alike ((Offers.declared declared).projected found).2
  | signature undeclared signed => exact alike ((Offers.signed undeclared signed).projected found).2
  | added declared optional _ _ node =>
      obtain ⟨same, type⟩ := (Offers.declared declared).projected found
      rw [same, optional] at present
      rw [type] at typed
      cases behind.concrete node trivial
      obtain ⟨_, yields⟩ := checkWithin_resolved parts sound resolves yields
      exact optional_accepts_iff parts sound node present yields typed

end

/-- A pick of one key on an object that has only this key is about its property. -/
theorem pick_single_yields (parts : ∀ part id, Stable core (checkPart part id))
    (sound : state.Sound core) (picks : base.pick [key] = .ok shape)
    (found : base.project? key = some property)
    (yields : Yields (checkFlat options checkPart (.object ⟨[(key, value)]⟩) none shape) state outcome) :
    (outcome ≠ .success ∧ Refuses options checkPart ⟨[(key, value)]⟩ state property) ∨
      (outcome = .success ∧ Passes options checkPart ⟨[(key, value)]⟩ state property) := by
  have only : ∀ other, other ∈ shape.properties ↔ other = property := by
    intro other
    rw [Shape.mem_pick_iff picks, List.mem_singleton]
    constructor
    · rintro ⟨rfl, there⟩
      exact Option.some.inj (there.symm.trans found)
    · rintro rfl
      have named := Shape.name_of_project? found
      exact ⟨named, named ▸ found⟩
  have remaining : Stable core (checkRemaining checkPart ⟨[(key, value)]⟩ shape none) :=
    checkRemaining_stable parts shape none
  simp only [checkFlat, checkShape, Shape.index_pick picks] at yields
  rcases checkProperties_yields parts sound remaining yields with ⟨rejected, other, listed, refuses⟩ |
    ⟨passes, onward⟩
  · exact .inl ⟨rejected, (only other).mp listed ▸ refuses⟩
  · refine .inr ⟨?_, passes property ((only property).mpr rfl)⟩
    rw [remaining_of_pick picks onward]
    exact checkExcess_success.mpr (by simp [Object.keys])

/-- What an access stands for, and the shape that it looks into. -/
theorem access_projects (parts : ∀ part id, Stable core (checkPart part id)) (sound : state.Sound core)
    (access : state.arena.get? id = some (.indexedAccess object key))
    (yields : Yields (checkWithin options checkPart value steps id) state outcome) :
    ∃ target projected resolved base, Resolves state id target ∧ Resolves state projected target ∧
      Resolves state object resolved ∧ state.shapes.find? resolved = some base ∧
        Projects core state base key projected := by
  obtain ⟨_, target, _, _, -, resolves, -⟩ := checkWithin_examines parts sound yields
  obtain ⟨projected, known, behind⟩ := resolves.behind_access sound access
  obtain ⟨_, _, resolved, base, access', ⟨looks, -⟩, settled, projects⟩ :=
    (sound.projections id projected known).computed
  cases access.symm.trans access'
  exact ⟨target, projected, resolved, base, resolves, behind, looks, settled, projects⟩

/-- The access and the pick, in a state in which nothing is added any more. -/
theorem access_agrees_with_pick {pick : SchemaId} {picked : Outcome}
    (sound : state.Sound core) (access : state.arena.get? id = some (.indexedAccess object key))
    (node : state.arena.get? pick = some (.mapped (.pick [key]) object))
    (known : state.shapes.find? pick = some shape) (defined : value ≠ .undefined)
    (yields : Yields (check options value id) state outcome)
    (flat : Yields (checkFlat options (checkLevels options (Value.object ⟨[(key, value)]⟩).height)
      (.object ⟨[(key, value)]⟩) none shape) state picked) :
    outcome = .success ↔ picked = .success := by
  have parts (levels : Nat) (part : Value) (id : SchemaId) :
      Stable core (checkLevels options levels part id) :=
    checkLevels_stable levels part id
  obtain ⟨target, projected, resolved, base, resolves, behind, looks, settled, projects⟩ :=
    access_projects (parts value.height) sound access yields
  obtain ⟨_, _, looks', settled', made⟩ := mapped_known sound node known
  cases looks.unique looks'
  cases settled.symm.trans settled'
  have picks := combine?_pick.mp made
  obtain ⟨property, listed, named⟩ := Shape.exists_picked picks (List.mem_singleton_self key)
  have found := ((Shape.mem_pick_iff picks).mp listed).2
  rw [named] at found
  have single := pick_single_yields (parts _) sound picks found flat
  have own : (⟨[(key, value)]⟩ : Object).get? property.name = some value := by
    simp [Object.get?, named]
  by_cases absent : isAbsent options property.optional value = true
  · have optional : property.optional = true := by
      cases value <;> simp_all [isAbsent]
    have left_out : presentValue options ⟨[(key, value)]⟩ property = none := by
      simp [presentValue, own, absent]
    have accepted := access_accepts_absent (parts value.height) sound resolves behind projects found
      yields optional (optional ▸ absent)
    rcases single with ⟨-, refuses⟩ | ⟨passed, -⟩
    · simp only [Refuses, left_out, optional] at refuses
      cases refuses
    · exact iff_of_true accepted passed
  · have present : isAbsent options property.optional value = false := Bool.eq_false_iff.mpr absent
    have checked : presentValue options ⟨[(key, value)]⟩ property = some value := by
      simp [presentValue, own, present]
    have lower : value.height < (Value.object ⟨[(key, value)]⟩).height :=
      Value.height_part (List.mem_singleton_self value)
    have iff {own : Outcome} (typed : Yields (check options value property.type) state own) :
        outcome = .success ↔ own = .success :=
      access_accepts_iff (parts value.height) sound resolves behind projects found yields present typed
    simp only [Refuses, Passes, checked, checkLevels_eq_check lower] at single
    rcases single with ⟨rejected, failure, typed⟩ | ⟨passed, typed⟩
    · exact (iff typed).trans (iff_of_false (by simp) rejected)
    · exact (iff typed).trans (iff_of_true rfl passed)

/-- An access at a key accepts a value that is not `undefined` if a pick of the key accepts the
object with this value alone.  If the key is an optional property it accepts `undefined` too. -/
theorem indexed_access_agrees_with_property {pick : SchemaId}
    (reachable : Reachable registry options validator)
    (access : validator.state.arena.get? id = some (.indexedAccess object key))
    (node : validator.state.arena.get? pick = some (.mapped (.pick [key]) object))
    (picks : (validator.flatten pick).1 = .ok shape) :
    (∀ one other value outcome picked, validator.Leads one → validator.Leads other →
      one.Leads other ∨ other.Leads one → value ≠ .undefined →
      (one.validateById value id).1 = .ok outcome →
      (other.validateById (.object ⟨[(key, value)]⟩) pick).1 = .ok picked →
      (outcome = .success ↔ picked = .success)) ∧
    ∀ later base property outcome, validator.Leads later → (validator.flatten object).1 = .ok base →
      base.property? key = some property → property.optional = true →
      (later.validateById .undefined id).1 = .ok outcome → outcome = .success := by
  constructor
  · intro one other value outcome picked leads leads' line defined ran ran'
    obtain ⟨state, grown, -, sound, yields, yields'⟩ :=
      yield_along (reachable.leads leads) (reachable.leads leads') line ran ran'
    have grown := le_trans (leads.advances reachable.sound).grown grown
    obtain ⟨declares, flat⟩ := flat_of_flattens reachable node rfl picks grown sound yields'
    exact access_agrees_with_pick sound (ResolverState.get?_later access grown)
      (ResolverState.get?_later node grown) declares.shape defined yields flat
  · intro later base property outcome leads flattens declared optional ran
    obtain ⟨state, grown, -, sound, yields, -⟩ :=
      yield_along (reachable.leads leads) (reachable.leads leads) (.inl .refl) ran ran
    have grown := le_trans (leads.advances reachable.sound).grown grown
    have parts (part : Value) (id : SchemaId) : Stable (coreSize registry) (checkLevels options 0 part id) :=
      checkLevels_stable 0 part id
    obtain ⟨target, projected, resolved, base', resolves, behind, looks, settled, projects⟩ :=
      access_projects parts sound (ResolverState.get?_later access grown) yields
    obtain ⟨last, beyond, last_sound, known⟩ :=
      exists_known reachable grown sound [(object, base)] (by simp [flattens])
    obtain ⟨resolved', looks', settled'⟩ := known_resolved last_sound (known (object, base) (by simp))
    cases (looks.later beyond).unique looks'
    cases (ResolverState.shape_later settled beyond).symm.trans settled'
    have found : base.project? key = some property := by simp [Shape.project?, declared]
    exact access_accepts_absent parts sound resolves behind projects found yields optional rfl

/-- An optional property that is an interface, an access to it and a pick of it. -/
def boxed : Validator :=
  (Validator.ofRegistry .empty { strictNullChecks := false, maxDepth := 8 }).allocAll
    [.string, .interface [⟨"label", true, ⟨2⟩⟩] none [], .interface [⟨"inner", true, ⟨3⟩⟩] none [],
      .indexedAccess ⟨4⟩ "inner", .mapped (.pick ["inner"]) ⟨4⟩]

theorem boxed_reachable : Reachable .empty { strictNullChecks := false, maxDepth := 8 } boxed :=
  Reachable.allocAll .refl (by decide)

theorem indexed_access_agrees_with_property_boxed :
    let value : Value := .object ⟨[("label", .null)]⟩
    let used := (boxed.validateById value ⟨5⟩).2
    (boxed.validateById value ⟨5⟩).1 = .ok .success ∧
      (∀ picked, (used.validateById (.object ⟨[("inner", value)]⟩) ⟨6⟩).1 = .ok picked →
        picked = .success) ∧
      ∀ outcome, (used.validateById .undefined ⟨5⟩).1 = .ok outcome → outcome = .success := by
  intro value used
  have answered : (boxed.validateById value ⟨5⟩).1 = .ok .success := rfl
  have picks : (boxed.flatten ⟨6⟩).1 = .ok ⟨[⟨"inner", true, ⟨3⟩⟩], none⟩ := rfl
  have leads : boxed.Leads used := .single (.validateById boxed value ⟨5⟩)
  have access : boxed.state.arena.get? ⟨5⟩ = some (.indexedAccess ⟨4⟩ "inner") := rfl
  have agrees := indexed_access_agrees_with_property boxed_reachable access rfl picks
  refine ⟨answered, fun picked ran => ?_, fun outcome ran => ?_⟩
  · exact (agrees.1 boxed used value _ picked .refl leads (.inl leads) nofun answered ran).mp rfl
  · exact agrees.2 used ⟨[⟨"inner", true, ⟨3⟩⟩], none⟩ ⟨"inner", true, ⟨3⟩⟩ outcome leads rfl rfl rfl ran

end Conform.Validator
