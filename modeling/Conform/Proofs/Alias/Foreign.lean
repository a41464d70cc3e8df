import Conform.Proofs.Alias.Searching
import Conform.Proofs.Distribution.Foreign

/-! The foreign fields of nodes with members that resolve alike.  They are the same, or both searches fail;
and then they fail alike, unless one comes back to a node that it has begun at. -/

namespace Conform.Alias

open Relation Run Resolver Agreement Distributed
open Validator (IsLimited)

variable {core limit steps : Nat} {before otherBefore last final : ResolverState} {id other target : SchemaId}
  {members others visited : List SchemaId} {fields otherFields : ForeignFields} {error : SchemaError}

/-- Unions and intersections of members that resolve alike. -/
structure Siblings (last : ResolverState) (id other : SchemaId) (members others : List SchemaId) : Prop where
  found : ∃ node, last.arena.get? id = some node ∧ (node = .union members ∨ node = .intersection members)
  otherFound : ∃ node, last.arena.get? other = some node ∧ (node = .union others ∨ node = .intersection others)
  alike : List.Forall₂ (Alike last) members others

theorem Alike.symm (alike : Alike last id other) : Alike last other id :=
  alike.imp Eq.symm fun ⟨target, resolves, resolves'⟩ => ⟨target, resolves', resolves⟩

namespace Siblings

theorem symm (siblings : Siblings last id other members others) : Siblings last other id others members :=
  ⟨siblings.otherFound, siblings.found, (siblings.alike.imp fun _ _ => Alike.symm).flip⟩

theorem concrete (siblings : Siblings last id other members others) :
    ∃ node, last.arena.get? id = some node ∧ node.IsConcrete ∧ node.isInterfaceLike = false := by
  obtain ⟨node, found, combines⟩ := siblings.found
  exact ⟨node, found, by rcases combines with rfl | rfl <;> trivial, by rcases combines with rfl | rfl <;> rfl⟩

/-- One step leads both to the same branches. -/
theorem branches (siblings : Siblings last id other members others) (sound : last.Sound core)
    (step : Branches last id target) : Branches last other target := by
  obtain ⟨node, found, combines⟩ := siblings.found
  obtain ⟨node', found', combines'⟩ := siblings.otherFound
  have onward {member : SchemaId} (listed : member ∈ members) (resolves : Resolves last member target) :
      Branches last other target := by
    obtain ⟨twin, listed', alike⟩ := exists_counterpart siblings.alike listed
    rcases combines' with rfl | rfl
    · exact .union found' listed' (alike.resolves resolves)
    · exact .intersection found' listed' (alike.resolves resolves)
  cases step with
  | union here listed resolves | intersection here listed resolves =>
      cases found.symm.trans here
      rcases combines with same | same <;> cases same
      exact onward listed resolves
  | distributed known =>
      obtain ⟨_, _, here⟩ := sound.mapped_of_distribution known
      cases found.symm.trans here
      rcases combines with same | same <;> cases same

/-- Whatever declares fields behind one is behind the other. -/
theorem declared (siblings : Siblings last id other members others) (sound : last.Sound core)
    (explored : Explored last visited id) {otherVisited : List SchemaId}
    (explored' : Explored last otherVisited other) {holds : Shape → Prop}
    (here : ∃ branch ∈ visited, ∃ shape, Declares last branch shape ∧ holds shape) :
    ∃ branch ∈ otherVisited, ∃ shape, Declares last branch shape ∧ holds shape := by
  obtain ⟨branch, inside, shape, declares, here⟩ := here
  refine ⟨branch, ?_, shape, declares, here⟩
  rcases ReflTransGen.cases_head (explored.2 branch inside).2 with rfl | ⟨next, step, path⟩
  · obtain ⟨node, found, -, unlike⟩ := siblings.concrete
    exact (silent_of_node found unlike shape declares).elim
  · exact explored'.mem_of_path sound (.head (siblings.branches sound step) path)

/-- Fields that are known of both are the same. -/
theorem fields_eq (siblings : Siblings last id other members others) (sound : last.Sound core)
    (known : last.foreign.find? id = some fields) (known' : last.foreign.find? other = some otherFields) :
    fields = otherFields := by
  obtain ⟨visited, start, resolves, inside, closed, gathers⟩ := sound.foreign id fields known
  obtain ⟨otherVisited, start', resolves', inside', closed', gathers'⟩ := sound.foreign other otherFields known'
  obtain ⟨node, found, concrete, -⟩ := siblings.concrete
  obtain ⟨node', found', concrete', -⟩ := siblings.symm.concrete
  cases resolves.concrete found concrete
  cases resolves'.concrete found' concrete'
  exact gathers.eq_of gathers' fun _ =>
    ⟨siblings.declared sound ⟨inside, closed⟩ ⟨inside', closed'⟩,
      siblings.symm.declared sound ⟨inside', closed'⟩ ⟨inside, closed⟩⟩

/-- Where the fields of one are known, no search behind the other fails. -/
theorem not_fails (siblings : Siblings last id other members others) (sound : last.Sound core)
    (known : last.foreign.find? id = some fields) :
    ¬ Answers core final (foreignFields limit other) last (.error error) := by
  intro answers
  obtain ⟨visited, start, resolves, inside, closed, -⟩ := sound.foreign id fields known
  obtain ⟨node, found, combines⟩ := siblings.found
  obtain ⟨node', found', combines'⟩ := siblings.otherFound
  obtain ⟨there, found'', concrete, -⟩ := siblings.concrete
  cases resolves.concrete found'' concrete
  obtain ⟨-, fewer, rfl, visits⟩ := foreignFields_visits answers
  obtain ⟨-, -, collects⟩ := visit_members found' combines' visits
  have resolves (member : SchemaId) (listed : member ∈ others) :
      ∃ resolved, resolved ∈ visited ∧ Resolves last member resolved := by
    obtain ⟨twin, listed', alike⟩ := exists_origin siblings.alike listed
    obtain ⟨resolved, within, resolves⟩ := Expanded.member_mem (closed _ inside).1 found combines listed'
    exact ⟨resolved, within, alike.resolves resolves⟩
  have present : List.Forall₂ (World.same last last).ids others others := by
    refine List.forall₂_same.mpr fun member listed => ⟨rfl, ?_⟩
    obtain ⟨_, -, resolves⟩ := resolves member listed
    exact resolve_present resolves.now
  have traces : CollectTraces core [] (collectWithin (fewer + 1) fewer) := collectWithin_traces _ _
  have confined : Closed core last [] (· ∈ visited) := fun branch listed => .inr (closed branch listed).1
  have agrees := traces (.same last last) (· ∈ visited) (Collected.empty.mark other) others others
    (.same sound sound (le_refl last)) confined (List.nil_subset _) present resolves
  have ran : collectWithin (fewer + 1) fewer (Collected.empty.mark other) others last =
    (.error error, (collectWithin (fewer + 1) fewer (Collected.empty.mark other) others last).2) :=
    Prod.ext collects.ran rfl
  cases agrees.of_left_error not_false ran fun limit same => answers.decided ⟨limit, by rw [same]⟩

end Siblings

/-- The branches behind the members lead to the node. -/
def LeadsTo (after : ResolverState) (members : List SchemaId) (id : SchemaId) : Prop :=
  ∃ member ∈ members, ∃ resolved, Resolves after member resolved ∧ ReflTransGen (Branches after) resolved id

theorem Abreast.error_eq {apart : SchemaId → Prop} {base : List SchemaId} {otherError : SchemaError}
    {found otherFound : Except SchemaError Collected × ResolverState}
    (abreast : Abreast apart base found otherFound) (fails : found.1 = .error error)
    (fails' : otherFound.1 = .error otherError) (decided : ¬ IsLimited (.error error : Except _ Collected))
    (decided' : ¬ IsLimited (.error otherError : Except _ Collected)) : error = otherError := by
  cases abreast with
  | limited limited => exact (decided (fails ▸ limited)).elim
  | otherLimited limited => exact (decided' (fails' ▸ limited)).elim
  | failed again _ _ =>
      cases fails
      cases fails'
      rfl
  | found _ _ => cases fails

/-- A search that has failed before a state fails there again. -/
theorem foreignFields_repeated {answer : Except SchemaError ForeignFields}
    (answers : Answers core last (foreignFields limit id) before answer) (present : id.index < before.arena.size)
    (fails : answer = .error error) :
    Answers core (foreignFields limit id last).2 (foreignFields limit id) last (.error error) := by
  subst fails
  have grows := answers.grows (foreignFields_stable limit id)
  have linked : (World.same before last).Linked core := .same answers.sound grows.sound grows.grown
  have agrees : Agrees core False (.same before last) _ _ _ :=
    foreignFields_agrees linked ⟨rfl, present⟩ (Nat.le_refl limit)
  have again := (foreignFields_stable limit id last grows.sound).leaves
  exact ⟨grows.sound, answers.fails agrees, .refl again.sound, answers.decided⟩

namespace Siblings

/-- Searches behind both that fail fail alike, unless they come back to where they have begun. -/
theorem fails_alike (siblings : Siblings last id other members others) {otherFinal : ResolverState}
    {otherError : SchemaError}
    (answers : Answers core final (foreignFields limit id) last (.error error))
    (answers' : Answers core otherFinal (foreignFields limit other) last (.error otherError)) :
    error = otherError ∨ LeadsTo final members id ∨ LeadsTo final members other := by
  by_cases back : LeadsTo final members id ∨ LeadsTo final members other
  · exact .inr back
  obtain ⟨node, found, combines⟩ := siblings.found
  obtain ⟨node', found', combines'⟩ := siblings.otherFound
  obtain ⟨-, fewer, rfl, visits⟩ := foreignFields_visits answers
  obtain ⟨-, fewer', same, visits'⟩ := foreignFields_visits answers'
  cases same
  obtain ⟨-, -, collects⟩ := visit_members found combines visits
  obtain ⟨-, -, collects'⟩ := visit_members found' combines' visits'
  have reaches : Reaches core (fewer + 1) last final (fun node => node = id ∨ node = other) []
      (LeadsTo final members) := by
    constructor
    · rintro branch next ⟨member, listed, resolved, resolves, path⟩ step
      exact ⟨member, listed, resolved, resolves, path.tail step⟩
    · rintro node (rfl | rfl) here
      · exact (back (.inl here)).elim
      · exact (back (.inr here)).elim
  have companion : Companion (fun node => node = id ∨ node = other) [] (Collected.empty.mark id)
      (Collected.empty.mark other) := by
    refine ⟨rfl, fun node apart => ?_, List.nil_subset _, List.nil_subset _⟩
    simp only [Collected.mark, Collected.empty, List.mem_singleton, not_or] at apart ⊢
    exact iff_of_false apart.1 apart.2
  have abreast := collectWithin_abreast reaches fewer answers.sound (le_refl last) collects.ends.grown companion
    siblings.alike fun member listed target resolves => ⟨member, listed, target, resolves, .refl⟩
  exact .inl (abreast.error_eq collects.ran collects'.ran collects.decided collects'.decided)

/-- The foreign fields of both have the same fate, or both searches fail in the last state. -/
theorem sameFate_or (siblings : Siblings last id other members others)
    {answer otherAnswer : Except SchemaError ForeignFields} (present : id.index < before.arena.size)
    (otherPresent : other.index < otherBefore.arena.size)
    (answers : Answers core last (foreignFields limit id) before answer)
    (answers' : Answers core last (foreignFields limit other) otherBefore otherAnswer) :
    SameFate Eq answer otherAnswer ∨ ∃ error otherError, answer = .error error ∧ otherAnswer = .error otherError ∧
      Answers core (foreignFields limit id last).2 (foreignFields limit id) last (.error error) ∧
      Answers core (foreignFields limit other last).2 (foreignFields limit other) last (.error otherError) := by
  have known {id : SchemaId} {fields : ForeignFields} {before after : ResolverState} (sound : before.Sound core)
      (ran : foreignFields limit id before = (.ok fields, after)) (ends : Grows core after last) :
      last.foreign.find? id = some fields :=
    ResolverState.foreign_later ((foreignFields_meets limit sound).answers _ _ ran) ends.grown
  rcases answers.outcome (foreignFields_stable limit id) with ⟨error, fails⟩ | ⟨fields, _, ran, -, ends, rfl⟩
  · have again := foreignFields_repeated answers present fails
    rcases answers'.outcome (foreignFields_stable limit other) with
      ⟨otherError, fails'⟩ | ⟨fields, _, ran, -, ends, rfl⟩
    · exact .inr ⟨error, otherError, fails, fails', again, foreignFields_repeated answers' otherPresent fails'⟩
    · exact (siblings.symm.not_fails ends.sound (known answers'.sound ran ends) again).elim
  · rcases answers'.outcome (foreignFields_stable limit other) with
      ⟨otherError, fails'⟩ | ⟨otherFields, _, ran', -, ends', rfl⟩
    · exact (siblings.not_fails ends.sound (known answers.sound ran ends)
        (foreignFields_repeated answers' otherPresent fails')).elim
    · exact .inl (.found (siblings.fields_eq ends.sound (known answers.sound ran ends)
        (known answers'.sound ran' ends')))

/-- If neither search comes back, the foreign fields have the same fate. -/
theorem sameFate (siblings : Siblings last id other members others)
    {answer otherAnswer : Except SchemaError ForeignFields} (present : id.index < before.arena.size)
    (otherPresent : other.index < otherBefore.arena.size)
    (answers : Answers core last (foreignFields limit id) before answer)
    (answers' : Answers core last (foreignFields limit other) otherBefore otherAnswer) :
    SameFate Eq answer otherAnswer ∨
      (∃ error otherError, answer = .error error ∧ otherAnswer = .error otherError) ∧
        (LeadsTo (foreignFields limit id last).2 members id ∨
          LeadsTo (foreignFields limit id last).2 members other) := by
  rcases siblings.sameFate_or present otherPresent answers answers' with
    fate | ⟨error, otherError, rfl, rfl, again, again'⟩
  · exact .inl fate
  · rcases siblings.fails_alike again again' with rfl | back
    · exact .inl (.failed rfl)
    · exact .inr ⟨⟨_, _, rfl, rfl⟩, back⟩

end Siblings

section

variable {type : SchemaId} {apart : SchemaId → Prop} {base : List SchemaId} {state : ResolverState}
  {one : Collected}

/-- Behind `undefined` nothing is found. -/
theorem enter_undefined (sound : state.Sound core) (here : apart Arena.undefined) (based : base ⊆ one.visited)
    (limit steps : Nat) (collect : Collected → List SchemaId → Run Collected) :
    ∃ result, enter limit steps collect one Arena.undefined state = (.ok result, state) ∧
      Companion apart base one result := by
  by_cases inside : Arena.undefined ∈ one.visited
  · exact ⟨one, by rw [enter_met inside]; rfl, .refl based⟩
  · refine ⟨one.mark Arena.undefined, ?_, .mark_apart based here⟩
    rw [enter_unmet inside]
    exact bind_ok (node_apply sound.undefined)

theorem visit_resolved (resolves : Resolves state id target) (limit steps : Nat)
    (collect : Collected → List SchemaId → Run Collected) (one : Collected) :
    visit limit (steps + 1) collect one id state = enter limit (steps + 1) collect one target state :=
  bind_ok (resolves.lasts limit steps).now

/-- A type and `undefined` add nothing where what the type resolves to has been visited. -/
theorem collect_optional (sound : state.Sound core) (resolves : Resolves state type target)
    (inside : target ∈ one.visited) (here : apart Arena.undefined) (based : base ⊆ one.visited)
    (limit steps : Nat) :
    IsLimited (collectWithin limit steps one [type, Arena.undefined] state).1 ∨
      ∃ result, collectWithin limit steps one [type, Arena.undefined] state = (.ok result, state) ∧
        Companion apart base one result := by
  cases steps with
  | zero => exact .inl ⟨limit, rfl⟩
  | succ steps =>
      rw [collectWithin, List.foldlM_cons]
      cases steps with
      | zero => exact .inl ⟨limit, rfl⟩
      | succ steps =>
          have first := visit_resolved resolves limit steps (collectWithin limit (steps + 1)) one
          rw [enter_met inside] at first
          have resolves' := resolves_concrete sound.undefined trivial
          have second := visit_resolved resolves' limit steps (collectWithin limit (steps + 1)) one
          obtain ⟨result, ran, companion⟩ := enter_undefined sound here based limit (steps + 1)
            (collectWithin limit (steps + 1))
          exact .inr ⟨result, (bind_ok first).trans (bind_ok (second.trans ran)), companion⟩

/-- The nodes of a type that may be `undefined` add nothing where what the type resolves to has been visited. -/
theorem harmless_optional (found : last.arena.get? id = some (.union [type, Arena.undefined]))
    (resolves : Resolves last type target) (here : apart id) (there : apart Arena.undefined) :
    Harmless core limit last apart [target] id := by
  intro steps state one sound grown based
  by_cases inside : id ∈ one.visited
  · exact .inr ⟨one, by rw [enter_met inside]; rfl, .refl based⟩
  · rw [enter_unmet inside]
    have marked := Companion.mark_apart based here
    have explores : explore limit steps (collectWithin limit steps) (one.mark id) id state =
        collectWithin limit steps (one.mark id) [type, Arena.undefined] state :=
      bind_ok (node_apply (ResolverState.get?_later found grown))
    rw [explores]
    rcases collect_optional sound (resolves.later grown) (marked.otherBased (List.mem_singleton_self target))
      there marked.otherBased limit steps with limited | ⟨result, ran, companion⟩
    · exact .inl limited
    · exact .inr ⟨result, ran, marked.trans companion⟩

end

section

variable {type : SchemaId} {otherFinal : ResolverState} {otherError : SchemaError}
  (found : last.arena.get? id = some (.union [type, Arena.undefined]))
  (found' : last.arena.get? other = some (.union [type, Arena.undefined]))

theorem collectWithin_resolved (resolves : Resolves last type target) (limit steps : Nat) (one : Collected)
    (rest : List SchemaId) : collectWithin limit (steps + 2) one (type :: rest) last =
      (enter limit (steps + 1) (collectWithin limit (steps + 1)) one target >>= fun found =>
        collectWithin limit (steps + 2) found rest) last :=
  bind_congr_first (visit_resolved resolves limit steps (collectWithin limit (steps + 1)) one)

/-- A search goes on where what it resolves first has been resolved. -/
theorem collectWithin_moves {middle : ResolverState}
    (ran : resolveWithin limit (steps + 1) type last = (.ok target, middle))
    (resolves : Resolves middle type target) (rest : List SchemaId) (one : Collected) :
    collectWithin limit (steps + 2) one (type :: rest) last =
      collectWithin limit (steps + 2) one (type :: rest) middle := by
  have same : visit limit (steps + 1) (collectWithin limit (steps + 1)) one type last =
      visit limit (steps + 1) (collectWithin limit (steps + 1)) one type middle :=
    (bind_ok ran).trans (visit_resolved resolves limit steps _ one).symm
  change andThen _ _ last = andThen _ _ middle
  simp only [andThen, same]

/-- A search that fails has not begun at what the type resolves to, or it would be at its end. -/
theorem begins_elsewhere (sound : last.Sound core) (resolves : Resolves last type target)
    (decided : ¬ IsLimited (.error error : Except _ Collected))
    (fails : (collectWithin limit steps (Collected.empty.mark id) [type, Arena.undefined] last).1 =
      .error error) : target ≠ id := by
  rintro rfl
  have ends : _ ∨ ∃ result, _ ∧ Companion (fun _ => True) [] (Collected.empty.mark target) result :=
    collect_optional sound resolves (List.mem_singleton_self target) trivial (List.nil_subset _) limit steps
  rcases ends with limited | ⟨result, ran, -⟩
  · exact decided (fails ▸ limited)
  · cases (congrArg Prod.fst ran).symm.trans fails

include found found'

/-- Searches of two such unions stay abreast behind what the type resolves to. -/
theorem optional_abreast (sound : last.Sound core) (resolves : Resolves last type target) (new : target ≠ id)
    (new' : target ≠ other) (limit steps : Nat) :
    Abreast (fun node => node = id ∨ node = other ∨ node = Arena.undefined) [target]
      (collectWithin limit (steps + 2) (Collected.empty.mark id) [type, Arena.undefined] last)
      (collectWithin limit (steps + 2) (Collected.empty.mark other) [type, Arena.undefined] last) := by
  have reaches : Reaches core limit last
      (collectWithin limit (steps + 2) (Collected.empty.mark id) [type, Arena.undefined] last).2
      (fun node => node = id ∨ node = other ∨ node = Arena.undefined) [target] fun _ => True := by
    constructor
    · intro _ _ _ _
      trivial
    · rintro node (rfl | rfl | rfl) -
      · exact harmless_optional found resolves (.inl rfl) (.inr (.inr rfl))
      · exact harmless_optional found' resolves (.inr (.inl rfl)) (.inr (.inr rfl))
      · exact fun steps state collected sound _ based =>
          .inr (enter_undefined sound (.inr (.inr rfl)) based limit steps (collectWithin limit steps))
  have collects := collectWithin_abreast reaches
  have stable (steps : Nat) (collected : Collected) (ids : List SchemaId) :
      Stable core (collectWithin limit steps collected ids) := collectWithin_stable limit steps collected ids
  have companion : Companion (fun node => node = id ∨ node = other ∨ node = Arena.undefined) [target]
      ((Collected.empty.mark id).mark target) ((Collected.empty.mark other).mark target) := by
    refine ⟨rfl, fun node apart => ?_, by simp [Collected.mark], by simp [Collected.mark]⟩
    simp only [not_or] at apart
    simp only [Collected.mark, Collected.empty, List.mem_cons, apart.1, apart.2.1]
  have unmet {start : SchemaId} (new : target ≠ start) : target ∉ (Collected.empty.mark start).visited :=
    fun listed => new (List.mem_singleton.mp listed)
  have split (start : SchemaId) (new : target ≠ start) :
      collectWithin limit (steps + 2) (Collected.empty.mark start) [type, Arena.undefined] last =
        (explore limit (steps + 1) (collectWithin limit (steps + 1)) ((Collected.empty.mark start).mark target)
          target >>= fun found => collectWithin limit (steps + 2) found [Arena.undefined]) last := by
    rw [collectWithin_resolved resolves, enter_unmet (unmet new)]
  have part := explore_stable (stable (steps + 1)) limit (steps + 1) ((Collected.empty.mark id).mark target) target
  have stays := first_le_bind sound part fun found => stable (steps + 2) found [Arena.undefined]
  rw [← split id new] at stays
  rw [split id new, split other new']
  refine .bind (explore_abreast reaches (stable (steps + 1)) (collects (steps + 1)) sound (le_refl last) stays
    companion trivial) fun one two middle ran companion => ?_
  have grows : Grows core last middle := by simpa only [ran] using (part last sound).leaves
  refine collects (steps + 2) grows.sound grows.grown ?_ companion (alike_refl last _) fun _ _ _ _ => trivial
  rw [split id new, bind_ok ran]

/-- Where the searches of two such unions fail they fail alike. -/
theorem optional_fails (answers : Answers core final (foreignFields limit id) last (.error error))
    (answers' : Answers core otherFinal (foreignFields limit other) last (.error otherError)) :
    error = otherError := by
  obtain ⟨-, fewer, rfl, visits⟩ := foreignFields_visits answers
  obtain ⟨-, fewer', same, visits'⟩ := foreignFields_visits answers'
  cases same
  obtain ⟨-, -, collects⟩ := visit_members found (.inl rfl) visits
  obtain ⟨-, -, collects'⟩ := visit_members found' (.inl rfl) visits'
  cases fewer with
  | zero => exact (collects.unlimited rfl).elim
  | succ steps =>
  cases steps with
  | zero => exact (collects.unlimited rfl).elim
  | succ steps =>
  cases ran : resolveWithin (steps + 3) (steps + 1) type last with
  | mk outcome middle =>
  cases outcome with
  | error stopped =>
      cases collects.error_eq (bind_error (bind_error ran))
      cases collects'.error_eq (bind_error (bind_error ran))
      rfl
  | ok target =>
      have meets := resolveWithin_meets (steps + 3) (steps + 1) type last collects.sound
      have grows : Grows core last middle := (meets.always_ok ran).grows
      have resolves := (meets.answers _ _ ran).1
      have moves := collectWithin_moves ran resolves [Arena.undefined]
      have fails := (congrArg Prod.fst (moves (Collected.empty.mark id))).symm.trans collects.ran
      have fails' := (congrArg Prod.fst (moves (Collected.empty.mark other))).symm.trans collects'.ran
      have abreast := optional_abreast (ResolverState.get?_later found grows.grown)
        (ResolverState.get?_later found' grows.grown) grows.sound resolves
        (begins_elsewhere grows.sound resolves collects.decided fails)
        (begins_elsewhere grows.sound resolves collects'.decided fails') (steps + 3) steps
      exact abreast.error_eq fails fails' collects.decided collects'.decided

/-- The foreign fields of two such unions have the same fate. -/
theorem optional_sameFate {answer otherAnswer : Except SchemaError ForeignFields}
    (present : id.index < before.arena.size) (otherPresent : other.index < otherBefore.arena.size)
    (answers : Answers core last (foreignFields limit id) before answer)
    (answers' : Answers core last (foreignFields limit other) otherBefore otherAnswer) :
    SameFate Eq answer otherAnswer := by
  have siblings : Siblings last id other [type, Arena.undefined] [type, Arena.undefined] :=
    ⟨⟨_, found, .inl rfl⟩, ⟨_, found', .inl rfl⟩, alike_refl last _⟩
  rcases siblings.sameFate_or present otherPresent answers answers' with
    fate | ⟨error, otherError, rfl, rfl, again, again'⟩
  · exact fate
  · rw [optional_fails found found' again again']
    exact .failed rfl

end

end Conform.Alias
