import Conform.Proofs.Validator.Monotone
import Conform.Proofs.Validator.Together

/-! Wider unions.  What a member accepts, or a union with fewer members, is accepted
by the union too: its foreign fields are those of all that can be reached from it,
so they include those that were tolerated before. -/

namespace Conform.Validator

open Run Resolver Agreement

variable {core steps more : Nat} {state : ResolverState} {options : Options} {value : Value}
  {id other : SchemaId} {outcome : Outcome} {checkPart : Value → SchemaId → Run Outcome}
  {fields wider : ForeignFields}

/-- Everything that is declared behind a node is among the fields. -/
structure Covers (state : ResolverState) (wider : ForeignFields) (id : SchemaId) : Prop where
  declared : ∀ resolved, Resolves state id resolved → ∀ branch,
    Relation.ReflTransGen (Branches state) resolved branch → ∀ shape, Declares state branch shape →
      shape.names ⊆ wider.names ∧
        (shape.index.map (·.keyType) = some .string → wider.stringKeys = true) ∧
        (shape.index.map (·.keyType) = some .number → wider.numberKeys = true)

theorem Covers.behind {resolved target : SchemaId} (covers : Covers state wider id)
    (resolves : Resolves state id resolved)
    (behind : ∀ found, Resolves state target found → Branches state resolved found) :
    Covers state wider target :=
  ⟨fun found leads branch path => covers.declared resolved resolves branch
    (.head (behind found leads) path)⟩

theorem Covers.resolved {target : SchemaId} (covers : Covers state wider id)
    (sound : state.Sound core) (resolves : Resolves state id target) : Covers state wider target := by
  refine ⟨fun found leads branch path => covers.declared target resolves branch ?_⟩
  cases Lasts.unique leads (resolves.again sound)
  exact path

/-- Surveyed fields are all that can be reached. -/
theorem surveys_cover (sound : state.Sound core) (surveys : Surveys state id fields) :
    Covers state fields id := by
  obtain ⟨visited, start, resolves, inside, explored, gathers⟩ := surveys
  refine ⟨fun resolved leads branch path shape declares => ?_⟩
  cases Lasts.unique leads resolves
  have listed := Explored.mem_of_path ⟨inside, explored⟩ sound path
  exact ⟨fun name declared => (gathers.names name).mpr ⟨branch, listed, shape, declares, declared⟩,
    fun strings => gathers.stringKeys.mpr ⟨branch, listed, shape, declares, strings⟩,
    fun numbers => gathers.numberKeys.mpr ⟨branch, listed, shape, declares, numbers⟩⟩

/-- Everything among the fields is declared behind a node. -/
def Behind (state : ResolverState) (fields : ForeignFields) (id : SchemaId) : Prop :=
  ∃ visited, Gathers state visited fields ∧ ∀ branch ∈ visited, ∀ shape, Declares state branch shape →
    ∃ resolved, Resolves state id resolved ∧ Relation.ReflTransGen (Branches state) resolved branch

theorem surveys_behind (surveys : Surveys state id fields) : Behind state fields id := by
  obtain ⟨visited, start, resolves, -, explored, gathers⟩ := surveys
  exact ⟨visited, gathers, fun branch listed _ _ => ⟨start, resolves, (explored branch listed).2⟩⟩

theorem Behind.resolved {target : SchemaId} (behind : Behind state fields id) (sound : state.Sound core)
    (resolves : Resolves state id target) : Behind state fields target := by
  obtain ⟨visited, gathers, inside⟩ := behind
  refine ⟨visited, gathers, fun branch listed shape declares => ?_⟩
  obtain ⟨start, leads, path⟩ := inside branch listed shape declares
  cases leads.unique resolves
  exact ⟨_, resolves.again sound, path⟩

/-- What is declared behind a distributed combinator is declared behind its union. -/
theorem Behind.distributed {union : SchemaId} (behind : Behind state fields id) (sound : state.Sound core)
    (resolves : Resolves state id id) (known : state.distributions.find? id = some union) :
    Behind state fields union := by
  obtain ⟨visited, gathers, inside⟩ := behind
  refine ⟨visited, gathers, fun branch listed shape declares => ?_⟩
  obtain ⟨start, leads, path⟩ := inside branch listed shape declares
  cases leads.unique resolves
  rcases Relation.ReflTransGen.cases_head path with rfl | ⟨next, step, rest⟩
  · exact (silent_of_distribution sound known shape declares).elim
  · cases step.of_distribution sound known
    exact ⟨_, distribution_resolves sound known, rest⟩

theorem Behind.included (behind : Behind state fields id) (covers : Covers state wider id) :
    fields.Included wider := by
  obtain ⟨visited, gathers, inside⟩ := behind
  have declared {branch : SchemaId} {shape : Shape} (listed : branch ∈ visited)
      (declares : Declares state branch shape) : shape.names ⊆ wider.names ∧
        (shape.index.map (·.keyType) = some .string → wider.stringKeys = true) ∧
        (shape.index.map (·.keyType) = some .number → wider.numberKeys = true) := by
    obtain ⟨start, resolves, path⟩ := inside branch listed shape declares
    exact covers.declared start resolves branch path shape declares
  refine ⟨fun name listed => ?_, fun strings => ?_, fun numbers => ?_⟩
  · obtain ⟨branch, inside, shape, declares, here⟩ := (gathers.names name).mp listed
    exact (declared inside declares).1 here
  · obtain ⟨branch, inside, shape, declares, here⟩ := gathers.stringKeys.mp strings
    exact (declared inside declares).2.1 here
  · obtain ⟨branch, inside, shape, declares, here⟩ := gathers.numberKeys.mp numbers
    exact (declared inside declares).2.2 here

theorem Covers.included (covers : Covers state wider id) (surveys : Surveys state id fields) :
    fields.Included wider :=
  (surveys_behind surveys).included covers

section

variable (parts : ∀ part id, Stable core (checkPart part id)) (sound : state.Sound core)

include parts sound

/-- A schema that is accepted alone is accepted as a member, where all that it
declares is tolerated. -/
theorem checkMemberWithin_of_checkWithin (covers : Covers state wider id)
    (accepted : Yields (checkWithin options checkPart value steps id) state .success)
    (yields : Yields (checkMemberWithin options checkPart value more wider id) state outcome) :
    outcome = .success := by
  induction steps using Nat.strongRecOn generalizing more id outcome with
  | ind steps ih =>
      obtain ⟨fewer, target, node, fields, less, resolves, found, known, here⟩ :=
        checkWithin_examines parts sound accepted
      obtain ⟨fewest, target', node', -, resolves', found', there⟩ :=
        checkMemberWithin_yields parts sound yields
      cases Lasts.unique resolves resolves'
      cases found.symm.trans found'
      have relaxing : Relaxing core Eq Eq state state checkPart checkPart := .self parts sound
      have alike : value.Resembles Eq value := .refl Eq.refl value
      have loose : options.Looser options := Options.Looser.refl options
      refine here.relaxes relaxing.settled rfl found found (checkMemberWithin_stable parts _ _)
        (checkMemberWithin_stable parts _ _) there (fun combines _ _ same => ?_)
        (fun {union _} distributes _ same => ?_)
        (fun _ shapes => checkFlat_relaxes relaxing alike loose .none shapes.eases) fun nodes single unlike => ?_
      · have surveys := sound.foreign target fields (known combines)
        exact checkMemberWithin_relaxes relaxing alike loose
          ((covers.resolved sound resolves).included surveys) same
      · subst same
        intro here outcome there
        refine ih fewer less (covers.behind resolves fun found leads => ?_) here there
        cases leads.unique (distribution_resolves sound distributes)
        exact .distributed distributes
      · exact checkWithin_single_relaxes relaxing alike loose found found nodes
          (resolves.target_concrete sound found) single unlike

/-- A member that is accepted is accepted in a union it belongs to. -/
theorem accepted_member {members : List SchemaId} {member : SchemaId}
    (node : state.arena.get? id = some (.union members)) (listed : member ∈ members)
    (accepted : Yields (checkWithin options checkPart value steps member) state .success)
    (yields : Yields (checkWithin options checkPart value more id) state outcome) :
    outcome = .success := by
  obtain ⟨fewer, fields, known, here⟩ := checkWithin_union parts sound node yields
  rcases checkAny_yields (checkMemberWithin_stable parts _ _) sound here with
    ⟨same, -⟩ | ⟨-, all⟩
  · exact same
  · obtain ⟨failure, failed⟩ := all member listed
    have covers := surveys_cover sound (sound.foreign id fields known)
    have behind := covers.behind (resolves_concrete node trivial) fun _ leads => .union node listed leads
    cases checkMemberWithin_of_checkWithin parts sound behind accepted failed

/-- What a union accepts, another one with more members accepts too. -/
theorem accepted_union {members others : List SchemaId}
    (node : state.arena.get? id = some (.union members))
    (otherNode : state.arena.get? other = some (.union others)) (subset : others ⊆ members)
    (accepted : Yields (checkWithin options checkPart value steps other) state .success)
    (yields : Yields (checkWithin options checkPart value more id) state outcome) :
    outcome = .success := by
  obtain ⟨_, fields, known, here⟩ := checkWithin_union parts sound node yields
  obtain ⟨_, otherFields, known', there⟩ := checkWithin_union parts sound otherNode accepted
  have covers := surveys_cover sound (sound.foreign id fields known)
  have otherCovers : Covers state fields other := by
    refine ⟨fun start leads branch path shape declares => ?_⟩
    cases leads.concrete otherNode trivial
    rcases Relation.ReflTransGen.cases_head path with rfl | ⟨step, first, rest⟩
    · exact (silent_of_node otherNode rfl shape declares).elim
    · have resolves := resolves_concrete node trivial
      refine covers.declared id resolves branch (.head ?_ rest) shape declares
      cases first with
      | union here listed leads =>
          cases otherNode.symm.trans here
          exact .union node (subset listed) leads
      | intersection here _ _ => cases otherNode.symm.trans here
      | distributed known =>
          obtain ⟨_, _, here⟩ := sound.mapped_of_distribution known
          cases otherNode.symm.trans here
  have included := otherCovers.included (sound.foreign other otherFields known')
  refine checkAny_relaxes_some sound sound (checkMemberWithin_stable parts _ _)
    (checkMemberWithin_stable parts _ _) (fun member listed => ?_) there _ here
  exact ⟨member, subset listed, fun accepted _ yields =>
    checkMemberWithin_monotone parts sound included accepted yields⟩

end

/-- A union accepts what one of its members accepts, and what a union accepts
whose members all belong to it. -/
theorem wider_union_accepts {registry : Registry} {validator later : Validator} {union : SchemaId}
    {members : List SchemaId} (reachable : Reachable registry options validator)
    (node : validator.state.arena.get? union = some (.union members))
    (accepted : (∃ member ∈ members, (validator.validateById value member).1 = .ok .success) ∨
      ∃ other others, validator.state.arena.get? other = some (.union others) ∧ others ⊆ members ∧
        (validator.validateById value other).1 = .ok .success)
    (leads : validator.Leads later) (answered : (later.validateById value union).1 = .ok outcome) :
    outcome = .success := by
  have advances := leads.advances reachable.sound
  have parts (levels : Nat) (part : Value) (id : SchemaId) :
      Stable (coreSize registry) (checkLevels options levels part id) :=
    checkLevels_stable levels part id
  rcases accepted with ⟨member, listed, success⟩ | ⟨other, others, otherNode, subset, success⟩
  · obtain ⟨state, grown, sound, accepted, yields⟩ := yield_together reachable leads success answered
    have grown := le_trans advances.grown grown
    exact accepted_member (parts value.height) sound (ResolverState.get?_later node grown) listed
      accepted yields
  · obtain ⟨state, grown, sound, accepted, yields⟩ := yield_together reachable leads success answered
    have grown := le_trans advances.grown grown
    exact accepted_union (parts value.height) sound (ResolverState.get?_later node grown)
      (ResolverState.get?_later otherNode grown) subset accepted yields

/-- A string, an interface, the union of the string, and the union of both. -/
def choices : Validator :=
  let named := ((Validator.ofRegistry .empty { maxDepth := 8 }).intern .string).2
  let shaped := (named.intern (.interface [⟨0, "size", true, .number none⟩] none [])).2
  let narrow := (shaped.alloc (.union [⟨2⟩])).2
  (narrow.alloc (.union [⟨4⟩, ⟨2⟩])).2

theorem choices_reachable : Reachable .empty { maxDepth := 8 } choices := by
  refine Relation.ReflTransGen.refl.tail (.intern _ .string) |>.tail (.intern _ _) |>.tail
    (.alloc _ (.union [⟨2⟩]) ?_) |>.tail (.alloc _ (.union [⟨4⟩, ⟨2⟩]) ?_) <;> decide

theorem wider_union_accepts_choices :
    ((choices.validateById (.string "a") ⟨2⟩).1 = .ok .success ∧
      ∀ outcome, (choices.validateById (.string "a") ⟨6⟩).1 = .ok outcome → outcome = .success) ∧
    ((choices.validateById (.string "b") ⟨5⟩).1 = .ok .success ∧
      ∀ outcome, (choices.validateById (.string "b") ⟨6⟩).1 = .ok outcome → outcome = .success) := by
  have listed : ⟨2⟩ ∈ [(⟨4⟩ : SchemaId), ⟨2⟩] := by decide
  have subset : [(⟨2⟩ : SchemaId)] ⊆ [⟨4⟩, ⟨2⟩] := by decide
  refine ⟨⟨rfl, fun outcome answered => ?_⟩, rfl, fun outcome answered => ?_⟩
  · exact wider_union_accepts choices_reachable rfl (.inl ⟨⟨2⟩, listed, rfl⟩) .refl answered
  · exact wider_union_accepts choices_reachable rfl (.inr ⟨⟨5⟩, [⟨2⟩], rfl, subset, rfl⟩) .refl answered

end Conform.Validator
