import Conform.Proofs.Resolver.Reaching
import Conform.Proofs.Validator.Flattening
import Conform.Proofs.Validator.Intersection

/-! Foreign fields and the branches they come from.  What a validator tolerates behind a node is what
the branches declare that its own calls lead to from there: no branch is forgotten, and none is made
up, however the branches refer to each other. -/

namespace Conform

namespace Validator

open Run Resolver

variable {core limit : Nat} {registry : Registry} {options : Options} {validator before after later : Validator}
  {id branch : SchemaId} {fields : ForeignFields} {visited : List SchemaId} {start : SchemaId}

theorem keepsSearches_operates (core limit : Nat) : Operates (keepsSearches core limit) limit limit where
  node id := keepsSearches_of_stable (.node id) (keepsForeign_steps.node id)
  resolve id := keepsSearches_of_stable (resolve_stable limit id) ((within_self keepsForeign_steps _ _).1 id)
  distribute id :=
    keepsSearches_of_stable (distributeWithin_stable limit limit id) (distributeWithin_self keepsForeign_steps _ _ id)
  flatten id :=
    keepsSearches_of_stable (flatten_stable limit id) ((within_self keepsForeign_steps _ _).2 [] id)
  foreignFields := foreignFields_keepsSearches limit

theorem check_keepsSearches (options : Options) (value : Value) (id : SchemaId) :
    (keepsSearches core options.maxDepth).Related (check options value id) (check options value id) := by
  have stops : (keepsSearches core options.maxDepth).Related
      (Run.fail (.depthLimitExceeded options.maxDepth) : Run Outcome) (Run.fail (.depthLimitExceeded options.maxDepth)) :=
    keepsSearches_of_stable (.fail _) (keepsForeign_steps.fail _)
  exact checkLevels_self (keepsSearches_operates core _) stops (value.height + 1) value id

theorem lookup_keepsSearches (path symbol : String) : (keepsSearches core limit).Related
    (Resolver.lookup path symbol) (Resolver.lookup path symbol) := by
  intro state sound remembers
  rw [lookup_stays]
  exact ⟨.refl sound, remembers⟩

/-- What is remembered of searches stays within the limit of the options. -/
theorem Step.remembers (step : Step before after) (sound : before.state.Sound core)
    (remembers : Remembers core before.options.maxDepth before.state) :
    Remembers core before.options.maxDepth after.state := by
  have operates := keepsSearches_operates core before.options.maxDepth
  cases step with
  | lookup path symbol => exact (lookup_keepsSearches path symbol before.state sound remembers).2
  | intern schema =>
      exact remembers.later (Step.advances (.intern before schema) sound).grown rfl
  | alloc node issued => exact remembers.later (le_alloc node before.state) rfl
  | resolve id => exact (operates.resolve id before.state sound remembers).2
  | isInterfaceLike id => exact (operates.isInterfaceLike id before.state sound remembers).2
  | flatten id => exact (operates.flatten id before.state sound remembers).2
  | distribute id => exact (operates.distribute id before.state sound remembers).2
  | foreignFields id => exact (operates.foreignFields id before.state sound remembers).2
  | validateById value id => exact (check_keepsSearches before.options value id before.state sound remembers).2
  | validate value path symbol =>
      exact ((keepsSearches core _).bind (lookup_keepsSearches path symbol)
        (check_keepsSearches before.options value) before.state sound remembers).2

theorem Reachable.remembers (reachable : Reachable registry options validator) :
    Remembers (coreSize registry) options.maxDepth validator.state := by
  induction reachable with
  | refl => exact fun _ _ known => nomatch known
  | tail leads step ih =>
      have reached : Reachable registry options _ := leads
      rw [← reached.options_eq] at ih ⊢
      exact step.remembers reached.sound ih

/-- The branches behind a node, as the validator itself resolves and distributes them. -/
inductive Searched (validator : Validator) (id : SchemaId) : SchemaId → Prop
  | start {resolved : SchemaId} (resolves : (validator.resolve id).1 = .ok resolved) :
      Searched validator id resolved
  | union {branch member resolved : SchemaId} {members : List SchemaId}
      (searched : Searched validator id branch)
      (node : validator.state.arena.get? branch = some (.union members)) (listed : member ∈ members)
      (resolves : (validator.resolve member).1 = .ok resolved) : Searched validator id resolved
  | intersection {branch member resolved : SchemaId} {members : List SchemaId}
      (searched : Searched validator id branch)
      (node : validator.state.arena.get? branch = some (.intersection members)) (listed : member ∈ members)
      (resolves : (validator.resolve member).1 = .ok resolved) : Searched validator id resolved
  | distributed {branch union : SchemaId} (searched : Searched validator id branch)
      (distributes : (validator.distribute branch).1 = .ok (some union)) : Searched validator id union

section

variable (positive : 0 < later.options.maxDepth)

include positive

theorem resolve_eq {resolved : SchemaId} (resolves : Resolves later.state id resolved) :
    (later.resolve id).1 = .ok resolved := by
  obtain ⟨limit, same⟩ := Nat.exists_eq_add_one.mpr positive
  have ran := (resolves.lasts later.options.maxDepth limit).now
  rw [← same] at ran
  exact congrArg Prod.fst ran

theorem searched_of_path (resolves : Resolves later.state id start)
    (path : Relation.ReflTransGen (Branches later.state) start branch) : later.Searched id branch := by
  induction path with
  | refl => exact .start (resolve_eq positive resolves)
  | tail _ step ih =>
      cases step with
      | union node listed resolves => exact .union ih node listed (resolve_eq positive resolves)
      | intersection node listed resolves => exact .intersection ih node listed (resolve_eq positive resolves)
      | distributed known => exact .distributed ih (congrArg Prod.fst (distributeWithin_known known _ _).now)

variable (sound : later.state.Sound core)

include sound

/-- The branches that a search has visited are closed under the calls. -/
theorem Searched.mem (searched : later.Searched id branch) (resolves : Resolves later.state id start)
    (explored : Explored later.state visited start) : branch ∈ visited := by
  have onward {branch member resolved : SchemaId} {members : List SchemaId} {node : Node}
      (inside : branch ∈ visited) (found : later.state.arena.get? branch = some node)
      (combines : node = .union members ∨ node = .intersection members) (listed : member ∈ members)
      (resolved_eq : (later.resolve member).1 = .ok resolved) : resolved ∈ visited := by
    obtain ⟨other, entered, leads⟩ := (explored.2 branch inside).1.member_mem found combines listed
    cases (resolve_eq positive leads).symm.trans resolved_eq
    exact entered
  induction searched with
  | start resolved_eq =>
      cases (resolve_eq positive resolves).symm.trans resolved_eq
      exact explored.1
  | union _ node listed resolved_eq ih => exact onward ih node (.inl rfl) listed resolved_eq
  | intersection _ node listed resolved_eq ih => exact onward ih node (.inr rfl) listed resolved_eq
  | @distributed branch union _ distributes ih =>
      obtain ⟨node, found, -⟩ := (explored.2 branch ih).1
      have meets : Meets (Resolver.distribute later.options.maxDepth branch) later.state _ _ :=
        distributeWithin_meets later.options.maxDepth later.options.maxDepth sound
      have ran : Resolver.distribute later.options.maxDepth branch later.state =
        (.ok (some union), (later.distribute branch).2.state) := Prod.ext distributes rfl
      have grows := meets.always_ok ran
      have known := meets.answers _ _ ran
      obtain ⟨_, _, mapped⟩ := grows.sound.mapped_of_distribution known
      cases (ResolverState.get?_later found grows.grown).symm.trans mapped
      rcases (explored.2 branch ih).1.interfaceLike found rfl with ⟨other, entered, earlier⟩ | ⟨shape, declares⟩
      · cases (ResolverState.distribution_later earlier grows.grown).symm.trans known
        exact entered
      · have undistributed := declares.undistributed.later grows.grown
        cases (grows.sound.undistributed_unknown undistributed).symm.trans known

/-- What the branches declare, by the calls and by what is remembered. -/
theorem declared_by_searched (resolves : Resolves later.state id start)
    (explored : Explored later.state visited start)
    (answered : AnsweredAll core later.options.maxDepth later.state visited) (holds : Shape → Prop) :
    (∃ branch ∈ visited, ∃ shape, Declares later.state branch shape ∧ holds shape) ↔
      ∃ branch, later.Searched id branch ∧ later.DeclaresFields branch ∧
        ∃ shape, (later.flatten branch).1 = .ok shape ∧ holds shape := by
  have flattens {branch : SchemaId} {shape : Shape} (declares : Declares later.state branch shape) :
      (later.flatten branch).1 = .ok shape :=
    congrArg Prod.fst (flattenWithin_known declares.shape _ _ []).now
  constructor
  · rintro ⟨branch, inside, shape, declares, here⟩
    refine ⟨branch, searched_of_path positive resolves (explored.2 branch inside).2,
      ⟨declares.interfaceLike, ?_⟩, shape, flattens declares, here⟩
    obtain ⟨node, found, like⟩ := declares.interfaceLike
    obtain ⟨node', found', settles⟩ := answered branch inside
    cases found.symm.trans found'
    obtain ⟨union, settles⟩ := settles like
    have ran := settles later.state (le_refl _) sound
    cases union with
    | none => exact congrArg Prod.fst ran
    | some union =>
        have known := (distributeWithin_meets _ _ sound).answers _ _ ran
        exact (silent_of_distribution sound known shape declares).elim
  · rintro ⟨branch, searched, ⟨⟨node, found, like⟩, undistributed⟩, shape, flattened, here⟩
    have inside := searched.mem positive sound resolves explored
    rcases (explored.2 branch inside).1.interfaceLike found like with ⟨union, -, known⟩ | ⟨other, declares⟩
    · have distributes : (later.distribute branch).1 = .ok (some union) :=
        congrArg Prod.fst (distributeWithin_known known _ _).now
      cases distributes.symm.trans undistributed
    · cases (flattens declares).symm.trans flattened
      exact ⟨branch, inside, shape, declares, here⟩

end

/-- The foreign fields of a node are those of the branches behind it that are interfaces and
combinators of their own: a name is among them if one of these declares it, and a key is permitted
if one of these declares it or has an index signature that accepts it.  All are read off the same
validator, right after the fields have been asked for or at any later time. -/
theorem foreign_fields_are_those_of_branches (reachable : Reachable registry options validator)
    (surveyed : (validator.foreignFields id).1 = .ok fields)
    (leads : (validator.foreignFields id).2.Leads later) (key : String) :
    (fields.contains key = true ↔ ∃ branch, later.Searched id branch ∧ later.DeclaresFields branch ∧
      ∃ shape, (later.flatten branch).1 = .ok shape ∧ shape.declares key = true) ∧
    (fields.permits key = true ↔ ∃ branch, later.Searched id branch ∧ later.DeclaresFields branch ∧
      ∃ shape, (later.flatten branch).1 = .ok shape ∧ (shape.declares key = true ∨
        ∃ signature, shape.index = some signature ∧ signature.accepts key = true)) := by
  have called := reachable.step (.foreignFields validator id)
  have reached := called.leads leads
  have ran : Resolver.foreignFields validator.options.maxDepth id validator.state =
    (.ok fields, (validator.foreignFields id).2.state) := Prod.ext surveyed rfl
  have known := (foreignFields_meets _ reachable.sound).answers _ _ ran
  have known' := ResolverState.foreign_later known (leads.advances called.sound).grown
  obtain ⟨visited, start, resolves, inside, explored, gathers⟩ := reached.sound.foreign id fields known'
  obtain ⟨positive, others, start', resolves', explored', answered⟩ := reached.remembers id fields known'
  cases Lasts.unique resolves resolves'
  rw [← reached.options_eq] at positive answered
  have answered : AnsweredAll (coreSize registry) later.options.maxDepth later.state visited :=
    fun branch listed => answered branch (explored'.mem_of_path reached.sound (explored branch listed).2)
  have declared := declared_by_searched positive reached.sound resolves ⟨inside, explored⟩ answered
  exact ⟨(gathers.contains_iff key).trans (declared _), (gathers.permits_iff key).trans (declared _)⟩

/-- A union that refers to itself and, twice, to an optional form of another union. -/
def entwined : Registry :=
  (Registry.empty.insert "m" "A" (.union (Branch.numbered [.reference "m/A",
    .interface [⟨0, "a", false, .string⟩] none [], .optional (.reference "m/B"),
    .intersection (Branch.numbered [.optional (.reference "m/B"), .reference "m/A"])]))).insert "m" "B"
    (.union (Branch.numbered [.interface [⟨0, "b", false, .string⟩] none [],
      .interface [] (some ⟨.number, .any⟩) []]))

theorem foreign_fields_are_those_of_branches_entwined :
    let validator := ofRegistry entwined { maxDepth := 16 }
    let later := (validator.foreignFields ⟨11⟩).2
    (validator.foreignFields ⟨11⟩).1 = .ok ⟨["a", "b"], false, true⟩ ∧
      (∃ branch, later.Searched ⟨11⟩ branch ∧ later.DeclaresFields branch ∧
        ∃ shape, (later.flatten branch).1 = .ok shape ∧ shape.declares "b" = true) ∧
      ∃ branch, later.Searched ⟨11⟩ branch ∧ later.DeclaresFields branch ∧
        ∃ shape, (later.flatten branch).1 = .ok shape ∧ (shape.declares "7" = true ∨
          ∃ signature, shape.index = some signature ∧ signature.accepts "7" = true) := by
  intro validator later
  have reachable : Reachable entwined { maxDepth := 16 } validator := .refl
  have surveyed : (validator.foreignFields ⟨11⟩).1 = .ok ⟨["a", "b"], false, true⟩ := by decide +kernel
  refine ⟨surveyed, ?_, ?_⟩
  · exact (foreign_fields_are_those_of_branches reachable surveyed .refl "b").1.mp (by decide)
  · exact (foreign_fields_are_those_of_branches reachable surveyed .refl "7").2.mp (by decide)

end Validator

end Conform
