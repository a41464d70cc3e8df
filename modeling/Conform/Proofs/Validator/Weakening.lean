import Conform.Proofs.Resolver.Weakening
import Conform.Proofs.Validator.Loosening
import Conform.Proofs.Validator.Widening

/-! Optional properties.  What a schema accepts is accepted with all properties optional.  Where the
schema is a union, or comes to one, the other is a union of combinators that were added for it, with
foreign fields of its own: each branch of the one has its counterpart in the other, so these include
the fields of the one. -/

namespace Conform.Validator

open Run Resolver Agreement

variable {core steps more : Nat} {registry : Registry} {options : Options} {state : ResolverState}
  {ids : SchemaId → SchemaId → Prop} {value : Value} {outcome : Outcome} {fields wider : ForeignFields}
  {id weak union weakUnion : SchemaId}
  {checkPart : Value → SchemaId → Run Outcome}

section

variable (settled : Settled core ids state state) (likens : Likens ids state.arena state.arena)

include settled likens

/-- The fields of the other union include those of the one. -/
theorem weakensEach_covers (each : WeakensEach ids state union weakUnion)
    (surveys : Surveys state weakUnion wider) : Covers state wider union := by
  have sound := settled.sound
  have covers := surveys_cover sound surveys
  have ⟨_, _, node, weak_node, _⟩ := each
  obtain ⟨visited, start, resolves, inside, explored, -⟩ := surveys
  cases resolves.concrete weak_node trivial
  refine ⟨fun resolved leads branch path shape declares => ?_⟩
  cases leads.concrete node trivial
  obtain ⟨other, listed, here⟩ := each.reached settled likens ⟨inside, explored⟩ path
  rcases here with ⟨_, _, node', -⟩ | ⟨member, weakens, behind⟩
  · exact (silent_of_node node' rfl shape declares).elim
  · obtain ⟨expanded, there⟩ := explored other listed
    cases weakens.to settled likens behind declares.decided expanded.decided with
    | union _ each =>
        obtain ⟨_, _, node', -⟩ := each
        exact (silent_of_node node' rfl shape declares).elim
    | distributed known => exact (silent_of_distribution sound known shape declares).elim
    | declared strong weak_declares shapes =>
        cases declares.shape.symm.trans strong.shape
        have wide := covers.declared _ resolves other there _ weak_declares
        rwa [← shapes.eases_optional.names_eq, ← shapes.eases_optional.keyType_eq] at wide

variable (relaxing : Relaxing core Eq ids state state checkPart checkPart)

include relaxing

theorem checkMemberWithin_weakens (included : fields.Included wider) (weakens : Weakens ids state id weak) :
    Relaxes state state (checkMemberWithin options checkPart value steps fields id)
      (checkMemberWithin options checkPart value more wider weak) := by
  have sound := settled.sound
  have stable (steps : Nat) (fields : ForeignFields) (id : SchemaId) :
      Stable core (checkMemberWithin options checkPart value steps fields id) :=
    checkMemberWithin_stable relaxing.stable steps fields id
  -- On the steps of the check that accepts: a member of a distributed combinator is two below it.
  induction steps using Nat.strongRecOn generalizing more id weak with
  | ind steps ih =>
      intro accepted outcome yields
      obtain ⟨fewer, target, node, same, resolves, found, here⟩ :=
        checkMemberWithin_yields relaxing.stable sound accepted
      obtain ⟨fewest, _, _, -, resolves', found', there⟩ :=
        checkMemberWithin_yields relaxing.stable sound yields
      have ⟨_, weak_node, _⟩ := weakens
      cases resolves'.concrete weak_node trivial
      cases found'.symm.trans weak_node
      cases weakens.to settled likens resolves (here.decided found) (there.decided found') with
      | union known each =>
          obtain ⟨listed, tops, node', weak_union, pairs⟩ := each
          cases found.symm.trans node'
          obtain ⟨_, -, there⟩ := checkMemberWithin_union relaxing.stable sound weak_union
            (there.of_distribution found' sound known)
          exact checkAny_relaxes sound sound (stable _ _) (stable _ _) pairs
            (ih fewer (by omega)) here _ there
      | distributed known weak_known each =>
          obtain ⟨listed, tops, union_node, weak_union, pairs⟩ := each
          obtain ⟨_, less, here⟩ := checkMemberWithin_union relaxing.stable sound union_node
            (here.of_distribution found sound known)
          obtain ⟨_, -, there⟩ := checkMemberWithin_union relaxing.stable sound weak_union
            (there.of_distribution found' sound weak_known)
          exact checkAny_relaxes sound sound (stable _ _) (stable _ _) pairs
            (ih _ (by omega)) here _ there
      | declared declares weak_declares shapes =>
          exact checkFlat_relaxes relaxing (.refl Eq.refl value) (Options.Looser.refl options)
            (.some included) shapes.eases_optional (here.of_declares found sound declares) _
            (there.of_declares found' sound weak_declares)

theorem checkWithin_weakensEach (each : WeakensEach ids state union weakUnion) :
    Relaxes state state (checkWithin options checkPart value steps union)
      (checkWithin options checkPart value more weakUnion) := by
  intro accepted outcome yields
  have sound := settled.sound
  have ⟨_, _, node, weak_node, pairs⟩ := each
  obtain ⟨_, fields, known, here⟩ := checkWithin_union relaxing.stable sound node accepted
  obtain ⟨_, wider, known', there⟩ := checkWithin_union relaxing.stable sound weak_node yields
  have covers := weakensEach_covers settled likens each (sound.foreign weakUnion wider known')
  have included := covers.included (sound.foreign union fields known)
  exact checkAny_relaxes sound sound (checkMemberWithin_stable relaxing.stable _ _)
    (checkMemberWithin_stable relaxing.stable _ _) pairs
    (checkMemberWithin_weakens settled likens relaxing included) here _ there

theorem checkWithin_weakens (weakens : Weakens ids state id weak) :
    Relaxes state state (checkWithin options checkPart value steps id)
      (checkWithin options checkPart value more weak) := by
  intro accepted outcome yields
  have sound := settled.sound
  obtain ⟨_, target, node, _, -, resolves, found, -, here⟩ :=
    checkWithin_examines relaxing.stable sound accepted
  obtain ⟨_, _, _, _, -, resolves', found', -, there⟩ :=
    checkWithin_examines relaxing.stable sound yields
  have ⟨_, weak_node, _⟩ := weakens
  cases resolves'.concrete weak_node trivial
  cases found'.symm.trans weak_node
  cases weakens.to settled likens resolves (here.decided found) (there.decided found') with
  | union known each =>
      obtain ⟨_, accepted⟩ := checkWithin_resolved relaxing.stable sound resolves accepted
      exact checkWithin_weakensEach settled likens relaxing each accepted _
        (there.of_distribution found' sound known)
  | distributed known weak_known each =>
      exact checkWithin_weakensEach settled likens relaxing each
        (here.of_distribution found sound known) _ (there.of_distribution found' sound weak_known)
  | declared declares weak_declares shapes =>
      exact checkFlat_relaxes relaxing (.refl Eq.refl value) (Options.Looser.refl options) .none
        shapes.eases_optional (here.of_declares found sound declares) _
        (there.of_declares found' sound weak_declares)

end

/-- What a schema accepts, a combinator that makes all its properties optional accepts too, if it has
an answer: whatever the schema is, in either null mode, and whichever of the two was asked before. -/
theorem optional_accepts_more {validator one other : Validator} {target : SchemaId}
    (reachable : Reachable registry options validator)
    (node : validator.state.arena.get? weak = some (.mapped .optional target))
    (leads : validator.Leads one) (leads' : validator.Leads other)
    (line : one.Leads other ∨ other.Leads one)
    (accepted : (one.validateById value target).1 = .ok .success)
    (answered : (other.validateById value weak).1 = .ok outcome) : outcome = .success := by
  obtain ⟨state, grown, -, sound, yields, yields'⟩ :=
    yield_along (reachable.leads leads) (reachable.leads leads') line accepted answered
  have known := ResolverState.get?_later node (le_trans (leads.advances reachable.sound).grown grown)
  have registered := le_trans (reachable.leads leads).registry_le (ResolverState.arena_le grown)
  have likens := Likens.alike (ResolverState.ofRegistry_sound registry) registered registered
  have settled := likens.settled sound sound
  -- Every node of the state is alike to itself.
  have issued := children_issued sound known target (List.mem_cons_self ..)
  have weakens : Weakens (Arena.Alike state.arena state.arena) state target weak :=
    ⟨target, known, .shared sound.ordered_nodes (le_refl _) (le_refl _) issued⟩
  have relaxing : Relaxing (coreSize registry) Eq (Arena.Alike state.arena state.arena) state state
      (checkLevels options value.height) (checkLevels options value.height) :=
    { settled, stable := checkLevels_stable _, otherStable := checkLevels_stable _
      alike := fun same => same ▸ .refl Eq.refl _
      parts := fun same _ _ related => checkLevels_relaxes settled (fun same => same ▸ .refl Eq.refl _)
        (Options.Looser.refl options) same related }
  exact checkWithin_weakens settled likens relaxing weakens yields _ yields'

/-- Two interfaces, their union without a key, a union of that and the first interface, and the last
union with all properties optional. -/
def relaxed : Validator :=
  (Validator.ofRegistry .empty { strictNullChecks := false, maxDepth := 8 }).allocAll
    [.string, .interface [⟨"name", false, ⟨2⟩⟩, ⟨"size", false, ⟨2⟩⟩] none [],
      .interface [⟨"tag", false, ⟨2⟩⟩] none [], .union [⟨3⟩, ⟨4⟩], .mapped (.without ["size"]) ⟨5⟩,
      .union [⟨3⟩, ⟨6⟩], .mapped .optional ⟨7⟩]

theorem relaxed_reachable : Reachable .empty { strictNullChecks := false, maxDepth := 8 } relaxed :=
  Reachable.allocAll .refl (by decide)

theorem accepted_of_any {answer : Except SchemaError Outcome}
    (any : answer.toOption.any (·.isSuccess) = true) : answer = .ok .success := by
  match answer with
  | .ok .success => rfl
  | .ok (.failure _) | .error _ => cases any

/-- The key `tag` is declared by another branch than the one that accepts. -/
theorem optional_accepts_more_relaxed :
    let value : Value := .object ⟨[("name", .string "a"), ("tag", .null)]⟩
    let used := (relaxed.validateById value ⟨7⟩).2
    (relaxed.validateById value ⟨7⟩).1 = .ok .success ∧
      ∃ outcome, (used.validateById value ⟨8⟩).1 = .ok outcome ∧ outcome = .success := by
  intro value used
  have accepted : (relaxed.validateById value ⟨7⟩).1 = .ok .success :=
    accepted_of_any (by decide +kernel)
  have answered : (used.validateById value ⟨8⟩).1 = .ok .success := accepted_of_any (by decide +kernel)
  have leads : relaxed.Leads used := .single (.validateById relaxed value ⟨7⟩)
  have node : relaxed.state.arena.get? ⟨8⟩ = some (.mapped .optional ⟨7⟩) := rfl
  exact ⟨accepted, _, answered,
    optional_accepts_more relaxed_reachable node .refl leads (.inl leads) accepted answered⟩

end Conform.Validator
