import Conform.Proofs.Alias.Fates
import Conform.Proofs.Distribution.Descending
import Conform.Proofs.Resolver.Repeating

/-! Chains as ways.  From a link there is one way on, the one that the last state knows of, so whatever a
resolution answers before that state is where the way ends, or tells that it comes into a circle. -/

namespace Conform.Alias

open Relation Run Resolver Agreement Distributed

variable {core limit steps : Nat} {before after last : ResolverState} {id other next : SchemaId}
  {error : SchemaError}

theorem hopWithin_stable (limit steps : Nat) (id : SchemaId) : Stable core (hopWithin limit steps id) := by
  intro state sound
  have start : id.Within core (id.index + 1) := .inr (Nat.lt_succ_self _)
  exact (hop_meets (project_meets (resolveWithin_meets limit steps) (flattenWithin_meets limit steps [])) sound
    (.inl start)).imp (fun _ => Resolving.grows)
      fun _ _ _ post => .of_lasts fun later grown => (hop_recalled (post.1 later grown)).1

theorem closeChain_stable (id : SchemaId) : Stable core (closeChain id) := by
  intro state sound
  refine (closeChain_meets id state).imp (fun _ same => same ▸ .refl sound) ?_
  rintro _ _ rfl ⟨rfl, node, found, concrete⟩
  exact .of_lasts (closeChain_concrete found concrete)

theorem follow_stable (limit steps hops : Nat) (visited : List SchemaId) (id : SchemaId) : Stable core
    (follow (project (resolveWithin limit steps) (flattenWithin limit steps [])) hops visited id) := by
  intro state sound
  have start : id.Within core (id.index + 1) := .inr (Nat.lt_succ_self _)
  exact (follow_meets (project_meets (resolveWithin_meets limit steps) (flattenWithin_meets limit steps [])) hops
    visited sound (.inl start)).imp (fun _ => Resolving.grows)
      fun _ _ _ post => .of_lasts fun later grown => follow_recalled (post.1 0 later grown)

theorem projectWithin_agrees (limit steps limit' steps' : Nat) : ProjectAgrees core (steps' < steps)
    (project (resolveWithin limit steps) (flattenWithin limit steps []))
    (project (resolveWithin limit' steps') (flattenWithin limit' steps' [])) :=
  project_agrees (resolveWithin_agrees limit steps limit' steps')
    (fun world id other linked related =>
      (resolveWithin_agrees limit steps 0 1 world id other linked related).weaken fun _ => trivial)
    (flattenWithin_agrees limit steps limit' steps')
    (fun world id other linked related =>
      (flattenWithin_agrees limit steps 0 0 world id other linked related).weaken fun _ => trivial)
    (resolveWithin_meets _ _) (resolveWithin_meets _ _) (flattenWithin_meets _ _ _)
    (flattenWithin_meets _ _ _)

/-- What a hop comes to in a state, with as many steps as it takes. -/
def HopsTo (last : ResolverState) (id : SchemaId) (next : Except SchemaError (Option SchemaId)) : Prop :=
  Converges (fun fuel => (hopWithin 0 fuel id last).1) next

/-- A hop before the last state comes to the same in that state. -/
theorem hopsTo_of_answers {answer : Except SchemaError (Option SchemaId)}
    (present : id.index < before.arena.size) (answers : Answers core last (hopWithin limit steps id) before answer) :
    HopsTo last id answer := by
  have stable : Stable core (hopWithin limit steps id) := hopWithin_stable limit steps id
  have grows := answers.grows stable
  rcases answers.outcome stable with ⟨error, rfl⟩ | ⟨next, after, ran, -, ends, rfl⟩
  · have linked : (World.same before last).Linked core := .same answers.sound grows.sound grows.grown
    exact ⟨steps, fun fuel above => answers.fails ((hop_agrees (projectWithin_agrees limit steps 0 fuel) linked
      ⟨rfl, present⟩).weaken (Nat.not_lt.mpr above))⟩
  · have start : id.Within core (id.index + 1) := .inr (Nat.lt_succ_self _)
    have meets := hop_meets (project_meets (resolveWithin_meets limit steps) (flattenWithin_meets limit steps []))
      answers.sound (.inl start)
    have lasts := (meets.answers _ _ ran).1.later ends.grown
    exact ⟨0, fun fuel _ => congrArg Prod.fst (hop_recalled lasts.now).1⟩

theorem hopsTo_concrete {node : Node} (found : last.arena.get? id = some node) (concrete : node.IsConcrete) :
    HopsTo last id (.ok none) :=
  ⟨0, fun _ _ => congrArg Prod.fst (hop_concrete found concrete).now⟩

/-- Where a chain stops: at a concrete node, or where no hop succeeds. -/
inductive ChainStops (last : ResolverState) (id : SchemaId) : Except SchemaError SchemaId → Prop
  | stays (hops : HopsTo last id (.ok none)) : ChainStops last id (.ok id)
  | fails {error : SchemaError} (hops : HopsTo last id (.error error)) : ChainStops last id (.error error)

/-- The chains of a state. -/
def chains (last : ResolverState) : Course SchemaId (Except SchemaError SchemaId) where
  next id next := HopsTo last id (.ok (some next))
  ends := ChainStops last
  next_unique hops hops' := by
    cases Converges.unique hops hops'
    rfl
  ends_unique stops stops' := by
    cases stops with
    | stays hops =>
        cases stops' with
        | stays => rfl
        | fails hops' => cases Converges.unique hops hops'
    | fails hops =>
        cases stops' with
        | stays hops' => cases Converges.unique hops hops'
        | fails hops' =>
            cases Converges.unique hops hops'
            rfl
  apart hops stops := by
    cases stops with
    | stays hops' => cases Converges.unique hops hops'
    | fails hops' => cases Converges.unique hops hops'

/-- The answer tells that a chain does not end. -/
def TellsOfChain (answer : Except SchemaError SchemaId) : Prop :=
  ∃ label, answer = .error (.referenceCycle label)

variable {answer : Except SchemaError SchemaId} {visited : List SchemaId} {size hops : Nat}

/-- A chain is closed at its end, or at a link that it has met before. -/
theorem closeChain_comes (leads : ∀ earlier ∈ visited, TransGen (chains last).next earlier id)
    (met : ∀ node, before.arena.get? id = some node → ¬ node.IsConcrete → id ∈ visited)
    (present : id.index < before.arena.size) (answers : Answers core last (closeChain id) before answer) :
    (chains last).Comes TellsOfChain id answer := by
  obtain ⟨node, found⟩ := before.arena.exists_get? id present
  have grown := (answers.grows (closeChain_stable id)).grown
  by_cases concrete : node.IsConcrete
  · cases answers.ok_eq (closeChain_concrete found concrete).now
    exact .inl (.here (.stays (hopsTo_concrete (ResolverState.get?_later found grown) concrete)))
  · have circle := leads id (met node found concrete)
    refine .inr ⟨?_, id, .refl, circle⟩
    have closes := answers.node found
    cases node with
    | reference target => exact ⟨target, closes.error_eq rfl⟩
    | indexedAccess object index => exact ⟨index, closes.error_eq rfl⟩
    | _ => exact (concrete trivial).elim

/-- What a chain is followed to before the last state. -/
theorem follow_comes (present : id.index < before.arena.size) (enough : Enough size hops visited before)
    (leads : ∀ earlier ∈ visited, TransGen (chains last).next earlier id)
    (answers : Answers core last (follow (project (resolveWithin limit steps) (flattenWithin limit steps []))
      hops visited id) before answer) : (chains last).Comes TellsOfChain id answer := by
  induction hops generalizing visited id before with
  | zero => exact closeChain_comes leads (fun _ found link => enough.met found link) present answers
  | succ hops ih =>
      by_cases met : visited.contains id = true
      · rw [follow_met met] at answers
        exact closeChain_comes leads (fun _ _ _ => List.elem_iff.mp met) present answers
      have unmet : id ∉ visited := fun listed => met (List.elem_iff.mpr listed)
      rw [follow_unmet met] at answers
      have stable : Stable core (hopWithin limit steps id) := hopWithin_stable limit steps id
      rcases answers.split stable with ⟨error, rfl, fails⟩ | ⟨next, middle, ran, grows, onward⟩
      · exact .inl (.here (.fails (hopsTo_of_answers present fails)))
      have start : id.Within core (id.index + 1) := .inr (Nat.lt_succ_self _)
      have meets := hop_meets (project_meets (resolveWithin_meets limit steps) (flattenWithin_meets limit steps []))
        answers.sound (.inl start)
      have resolving := meets.always_ok ran
      obtain ⟨lasts, -, reached⟩ := meets.answers _ _ ran
      cases next with
      | none =>
          obtain ⟨node, found, concrete⟩ := reached
          cases onward.ok_eq rfl
          have ends := onward.grows (.pure id)
          exact .inl (.here (.stays (hopsTo_concrete (ResolverState.get?_later found ends.grown) concrete)))
      | some next =>
          have ends := onward.grows (follow_stable limit steps hops (id :: visited) next)
          have step : HopsTo last id (.ok (some next)) :=
            hopsTo_of_answers present (.of_ok answers.sound ran ends)
          have present' : next.index < middle.arena.size := by
            rcases reached with within | ⟨node, found, -⟩
            · have earlier := Nat.lt_of_lt_of_le present (ResolverState.size_mono grows.grown)
              exact Within.index_lt within grows.sound.core_le earlier
            · exact Arena.index_lt_size found
          obtain ⟨node, found⟩ := before.arena.exists_get? id present
          have link : ¬ node.IsConcrete := by
            intro concrete
            cases (hop_concrete found concrete).now.symm.trans ran
          exact .of_step step leads fun leads' =>
            ih present' ((enough.cons found link unmet).later resolving.addsConcrete) leads' onward

/-- What is resolved before the last state is where the chain ends, or tells that it does not. -/
theorem resolve_comes (present : id.index < before.arena.size)
    (answers : Answers core last (resolveWithin limit steps id) before answer) :
    (chains last).Comes TellsOfChain id answer := by
  cases steps with
  | zero => exact (answers.unlimited rfl).elim
  | succ steps =>
      exact follow_comes present (.start before) (fun _ listed => (List.not_mem_nil listed).elim)
        (answers.congr (resolveWithin_succ limit steps id before))

theorem sameFate_of_comes {again : Except SchemaError SchemaId}
    (comes : (chains last).Comes TellsOfChain id answer) (comes' : (chains last).Comes TellsOfChain id again) :
    SameFate Eq answer again := by
  rcases comes.cases comes' with same | ⟨⟨label, rfl⟩, otherLabel, rfl⟩
  · exact .of_eq same
  · exact .failed rfl

/-- References to one target lead to one node. -/
theorem references_sameFate {target : String} {again : Except SchemaError SchemaId}
    (found : last.arena.get? id = some (.reference target))
    (found' : last.arena.get? other = some (.reference target))
    (comes : (chains last).Comes TellsOfChain id answer)
    (comes' : (chains last).Comes TellsOfChain other again) : SameFate Eq answer again := by
  have hops (link : SchemaId) (found : last.arena.get? link = some (.reference target)) :
      HopsTo last link ((last.arena.named target).map some) :=
    ⟨0, fun _ _ => congrArg Prod.fst (hop_reference found _)⟩
  have here := hops id found
  have there := hops other found'
  cases named : last.arena.named target with
  | error error =>
      rw [named] at here there
      rw [comes.of_ends (.fails here), comes'.of_ends (.fails there)]
      exact .failed rfl
  | ok next =>
      rw [named] at here there
      exact sameFate_of_comes ((Course.Comes.onward_iff here).mp comes)
        ((Course.Comes.onward_iff there).mp comes')

/-- What an access comes to where nothing is remembered of it. -/
def accessAt (last : ResolverState) (object : SchemaId) (index : String) (fuel : Nat) :
    Except SchemaError SchemaId :=
  ((shapeBehind (resolveWithin 0 fuel) (flattenWithin 0 fuel []) .indexOnNonInterface object >>= fun shape =>
    projectShape shape index) last).1

/-- Nodes that a type stands for: the same one, or unions of one type with `undefined`, each added for
an access of its own. -/
def Twin (last : ResolverState) (one other : SchemaId) : Prop :=
  one = other ∨ ∃ type, last.arena.get? one = some (.union [type, Arena.undefined]) ∧
    last.arena.get? other = some (.union [type, Arena.undefined])

section

variable {object otherObject target projected otherProjected : SchemaId} {index : String} {shape : Shape}

theorem accessAt_joined (resolves : Resolves last object target) (resolves' : Resolves last otherObject target)
    (fuel : Nat) : accessAt last object index (fuel + 1) = accessAt last otherObject index (fuel + 1) := by
  simp only [accessAt, shapeBehind, Run.bind_assoc, bind_ok (resolves.lasts 0 fuel).now,
    bind_ok (resolves'.lasts 0 fuel).now]

/-- What remembers nothing cannot fail after it has projected. -/
theorem accessAt_of_hopsTo (unknown : last.projections.find? id = none)
    (found : last.arena.get? id = some (.indexedAccess object index)) (hops : HopsTo last id (.error error)) :
    Converges (accessAt last object index) (.error error) := by
  obtain ⟨enough, ends⟩ := hops
  refine ⟨enough, fun fuel above => ?_⟩
  have failed : hopWithin 0 fuel id last = (.error error, (hopWithin 0 fuel id last).2) :=
    Prod.ext (ends fuel above) rfl
  rw [hopWithin_compute found unknown, Run.bind_assoc] at failed
  rw [accessAt]
  cases flattened : shapeBehind (resolveWithin 0 fuel) (flattenWithin 0 fuel []) .indexOnNonInterface object
      last with
  | mk outcome middle =>
      cases outcome with
      | error other =>
          cases (bind_error flattened).symm.trans failed
          rw [bind_error flattened]
      | ok shape =>
          rw [bind_ok flattened, projectTail, Run.bind_assoc] at failed
          rw [bind_ok flattened]
          cases projected : projectShape shape index middle with
          | mk outcome after =>
              cases outcome with
              | error other =>
                  cases (bind_error projected).symm.trans failed
                  rfl
              | ok projected =>
                  rw [bind_ok projected, bind_ok keepProjection_apply] at failed
                  cases failed

theorem projectShape_of_projects (projects : Projects core last shape index projected) :
    ∃ answer, (projectShape shape index last).1 = .ok answer := by
  cases projects with
  | required declared required =>
      simp only [projectShape, declared, required]
      exact ⟨_, rfl⟩
  | included declared optional included =>
      simp only [projectShape, declared, optional, if_true, bind_ok included.now]
      exact ⟨_, rfl⟩
  | added declared optional missing =>
      simp only [projectShape, declared, optional, if_true, bind_ok missing.now]
      exact ⟨_, rfl⟩
  | signature undeclared signed =>
      simp only [projectShape, undeclared, signed]
      exact ⟨_, rfl⟩

/-- What is remembered of an access can be found again. -/
theorem accessAt_known (sound : last.Sound core) (known : last.projections.find? id = some projected)
    (found : last.arena.get? id = some (.indexedAccess object index)) (fuel : Nat) :
    ∃ answer, accessAt last object index (fuel + 1) = .ok answer := by
  obtain ⟨_, _, target, shape, found', ⟨resolves, node, there, like⟩, flat, projects⟩ :=
    (sound.projections id projected known).computed
  cases found.symm.trans found'
  obtain ⟨answer, ran⟩ := projectShape_of_projects projects
  refine ⟨answer, ?_⟩
  simp only [accessAt, shapeBehind, Run.bind_assoc, bind_ok (resolves.lasts 0 fuel).now,
    bind_ok (node_apply there), like, if_true, bind_ok (flattenWithin_known flat 0 (fuel + 1) []).now]
  exact ran

/-- Of one shape the same index stands for twins. -/
theorem Projects.twin (projects : Projects core last shape index projected)
    (projects' : Projects core last shape index otherProjected) : Twin last projected otherProjected := by
  cases projects with
  | required declared required =>
      cases projects' with
      | required declared' | included declared' optional' =>
          cases declared.symm.trans declared'
          exact .inl rfl
      | added declared' optional' =>
          cases declared.symm.trans declared'
          cases required.symm.trans optional'
      | signature undeclared => cases declared.symm.trans undeclared
  | included declared optional included =>
      cases projects' with
      | required declared' | included declared' _ =>
          cases declared.symm.trans declared'
          exact .inl rfl
      | added declared' _ missing =>
          cases declared.symm.trans declared'
          cases included.unique missing
      | signature undeclared => cases declared.symm.trans undeclared
  | added declared optional missing late node =>
      cases projects' with
      | required declared' required =>
          cases declared.symm.trans declared'
          cases required.symm.trans optional
      | included declared' _ included =>
          cases declared.symm.trans declared'
          cases included.unique missing
      | added declared' _ _ _ node' =>
          cases declared.symm.trans declared'
          exact .inr ⟨_, node, node'⟩
      | signature undeclared => cases declared.symm.trans undeclared
  | signature undeclared signed =>
      cases projects' with
      | required declared | included declared | added declared => cases undeclared.symm.trans declared
      | signature _ signed' =>
          cases signed.symm.trans signed'
          exact .inl rfl

/-- What two accesses with one index into one object stand for. -/
theorem projections_twin (sound : last.Sound core) (joined : Resolves last object target)
    (joined' : Resolves last otherObject target)
    (found : last.arena.get? id = some (.indexedAccess object index))
    (found' : last.arena.get? other = some (.indexedAccess otherObject index))
    (known : last.projections.find? id = some projected)
    (known' : last.projections.find? other = some otherProjected) : Twin last projected otherProjected := by
  obtain ⟨_, _, _, _, here, ⟨resolves, -⟩, flat, projects⟩ := (sound.projections _ _ known).computed
  obtain ⟨_, _, _, _, there, ⟨resolves', -⟩, flat', projects'⟩ := (sound.projections _ _ known').computed
  cases found.symm.trans here
  cases found'.symm.trans there
  cases joined.unique resolves
  cases joined'.unique resolves'
  cases flat.symm.trans flat'
  exact Projects.twin projects projects'

/-- The way on from an access, or the failure of the access. -/
theorem access_hops (present : id.index < before.arena.size)
    (found : last.arena.get? id = some (.indexedAccess object index))
    (answers : Answers core last (resolveWithin limit steps id) before answer) :
    (∃ error, answer = .error error ∧ Converges (accessAt last object index) (.error error)) ∨
      ∃ projected, HopsTo last id (.ok (some projected)) ∧ last.projections.find? id = some projected := by
  cases known : last.projections.find? id with
  | some projected =>
      have hops (fuel : Nat) : hopWithin 0 fuel id last = (.ok (some projected), last) :=
        (bind_ok (node_apply found)).trans (bind_ok (project_known known).now)
      exact .inr ⟨projected, ⟨0, fun fuel _ => congrArg Prod.fst (hops fuel)⟩, rfl⟩
  | none =>
      refine .inl ?_
      cases steps with
      | zero => exact (answers.unlimited rfl).elim
      | succ steps =>
          obtain ⟨node, here⟩ := before.arena.exists_get? id present
          have grown := (answers.grows (resolveWithin_stable limit (steps + 1) id)).grown
          cases found.symm.trans (ResolverState.get?_later here grown)
          obtain ⟨hops, left⟩ := Nat.exists_eq_add_of_le' (Nat.lt_of_le_of_lt (Nat.zero_le _) present)
          have follows := answers.congr (resolveWithin_succ limit steps id before)
          rw [left, follow_unmet (by simp)] at follows
          have stable : Stable core (hopWithin limit steps id) := hopWithin_stable limit steps id
          rcases follows.split stable with ⟨error, same, fails⟩ | ⟨next, middle, ran, grows, onward⟩
          · exact ⟨error, same, accessAt_of_hopsTo known found (hopsTo_of_answers present fails)⟩
          · -- What a hop finds would be remembered by now.
            have start : id.Within core (id.index + 1) := .inr (Nat.lt_succ_self _)
            have meets := hop_meets (project_meets (resolveWithin_meets limit steps)
              (flattenWithin_meets limit steps [])) answers.sound (.inl start)
            have goes_on : Grows core middle last := onward.grows (by
              cases next with
              | none => exact .pure id
              | some next => exact follow_stable limit steps hops [id] next)
            have recalls := ((meets.answers _ _ ran).1.later goes_on.grown).now
            obtain ⟨_, _, reads, recalls⟩ := of_bind_ok recalls
            cases (node_apply found).symm.trans reads
            obtain ⟨_, _, recalls, -⟩ := of_bind_ok recalls
            cases known.symm.trans (recallProjection_known recalls).1

/-- Accesses with one index into one object lead to twins, or fail alike. -/
theorem accesses_sameFate {before' : ResolverState} {limit' steps' : Nat}
    {again : Except SchemaError SchemaId} (joined : Resolves last object target)
    (joined' : Resolves last otherObject target)
    (found : last.arena.get? id = some (.indexedAccess object index))
    (found' : last.arena.get? other = some (.indexedAccess otherObject index))
    (present : id.index < before.arena.size) (present' : other.index < before'.arena.size)
    (answers : Answers core last (resolveWithin limit steps id) before answer)
    (answers' : Answers core last (resolveWithin limit' steps' other) before' again) :
    SameFate (Twin last) answer again := by
  have sound := (answers.grows (resolveWithin_stable limit steps id)).sound
  rcases access_hops present found answers with ⟨error, rfl, fails⟩ | ⟨projected, hops, known⟩
  · rcases access_hops present' found' answers' with ⟨error', rfl, fails'⟩ | ⟨_, -, known'⟩
    · have fate : SameFate Eq (.error error : Except SchemaError SchemaId) (.error error') :=
        .converged (fun fuel => .of_eq (accessAt_joined joined joined' fuel)) fails fails'
      exact fate.imp fun _ _ same => .inl same
    · obtain ⟨enough, ends⟩ := fails
      obtain ⟨_, found_again⟩ := accessAt_known sound known' found' enough
      cases (ends _ (Nat.le_succ enough)).symm.trans ((accessAt_joined joined joined' enough).trans found_again)
  · rcases access_hops present' found' answers' with ⟨error', rfl, fails'⟩ | ⟨otherProjected, hops', known'⟩
    · obtain ⟨enough, ends⟩ := fails'
      obtain ⟨_, found_again⟩ := accessAt_known sound known found enough
      cases (ends _ (Nat.le_succ enough)).symm.trans
        ((accessAt_joined joined joined' enough).symm.trans found_again)
    · have comes := (Course.Comes.onward_iff hops).mp (resolve_comes present answers)
      have comes' := (Course.Comes.onward_iff hops').mp (resolve_comes present' answers')
      rcases projections_twin sound joined joined' found found' known known' with rfl | ⟨type, node, node'⟩
      · exact (sameFate_of_comes comes comes').imp fun _ _ same => .inl same
      · cases comes.of_ends (.stays (hopsTo_concrete node trivial))
        cases comes'.of_ends (.stays (hopsTo_concrete node' trivial))
        exact .found (.inr ⟨type, node, node'⟩)

end

end Conform.Alias
