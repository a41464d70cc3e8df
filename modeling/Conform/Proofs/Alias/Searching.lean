import Conform.Proofs.Alias.Shapes

/-! Two searches at once.  They begin in one state at nodes that resolve alike and do the same as long as
they have visited the same, apart from some nodes that lead to nothing new. -/

namespace Conform.Alias

open Relation Run Resolver Agreement Distributed
open Validator (IsLimited)

variable {core limit steps : Nat} {state middle last final : ResolverState} {id other target : SchemaId}
  {members others base : List SchemaId} {node : Node} {apart reached : SchemaId → Prop}
  {one two three : Collected} {error : SchemaError} {collect : Collected → List SchemaId → Run Collected}

theorem Alike.resolves (alike : Alike last id other) (resolves : Resolves last id target) :
    Resolves last other target := by
  rcases alike with rfl | ⟨there, resolves', resolves''⟩
  · exact resolves
  · cases Lasts.unique resolves resolves'
    exact resolves''

/-- Visits the union that stands for a marked node, or adds what the node declares itself. -/
def branchOut (limit steps : Nat) (collect : Collected → List SchemaId → Run Collected) (marked : Collected)
    (resolved : SchemaId) : Run Collected := do
  match ← distributeWithin limit steps resolved with
  | some union => collect marked [union]
  | none =>
      let shape ← flattenWithin limit steps [] resolved
      return marked.absorb shape

/-- Visits what is behind a marked node. -/
def explore (limit steps : Nat) (collect : Collected → List SchemaId → Run Collected) (marked : Collected)
    (resolved : SchemaId) : Run Collected := do
  match ← Run.node resolved with
  | .union members | .intersection members => collect marked members
  | .interface _ _ _ | .mapped _ _ => branchOut limit steps collect marked resolved
  | _ => return marked

theorem enter_met (inside : id ∈ one.visited) : enter limit steps collect one id = pure one :=
  if_pos (List.elem_iff.mpr inside)

theorem enter_unmet (outside : id ∉ one.visited) :
    enter limit steps collect one id = explore limit steps collect (one.mark id) id :=
  if_neg fun met => outside (List.elem_iff.mp met)

theorem branchOut_stable (collects : ∀ collected ids, Stable core (collect collected ids)) (limit steps : Nat)
    (marked : Collected) (id : SchemaId) : Stable core (branchOut limit steps collect marked id) := by
  refine .bind (distributeWithin_stable limit steps id) fun union => ?_
  cases union with
  | some union => exact collects _ _
  | none => exact .bind (flattenWithin_stable limit steps [] id) fun _ => .pure _

theorem explore_stable (collects : ∀ collected ids, Stable core (collect collected ids)) (limit steps : Nat)
    (marked : Collected) (id : SchemaId) : Stable core (explore limit steps collect marked id) := by
  refine .bind (.node id) fun node => ?_
  cases node with
  | union members | intersection members => exact collects _ _
  | interface _ _ _ | mapped _ _ => exact branchOut_stable collects limit steps marked id
  | _ => exact .pure _

theorem enter_stable (collects : ∀ collected ids, Stable core (collect collected ids)) (limit steps : Nat)
    (collected : Collected) (id : SchemaId) : Stable core (enter limit steps collect collected id) := by
  by_cases inside : id ∈ collected.visited
  · rw [enter_met inside]
    exact .pure collected
  · rw [enter_unmet inside]
    exact explore_stable collects limit steps _ id

/-- What comes second adds to what comes first. -/
theorem first_le_bind {α β : Type} {first : Run α} {next : α → Run β} (sound : state.Sound core)
    (part : Stable core first) (rest : ∀ found, Stable core (next found)) :
    (first state).2 ≤ ((first >>= next) state).2 := by
  cases ran : first state with
  | mk outcome middle =>
      have grows : Grows core state middle := by simpa only [ran] using (part state sound).leaves
      cases outcome with
      | ok found =>
          rw [bind_ok ran]
          exact (rest found middle grows.sound).leaves.grown
      | error error =>
          rw [bind_error ran]

/-- The same has been visited, apart from some nodes, and the same fields have been found. -/
structure Companion (apart : SchemaId → Prop) (base : List SchemaId) (one two : Collected) : Prop where
  fields : one.fields = two.fields
  visited : ∀ id, ¬ apart id → (id ∈ one.visited ↔ id ∈ two.visited)
  based : base ⊆ one.visited
  otherBased : base ⊆ two.visited

namespace Companion

theorem refl (based : base ⊆ one.visited) : Companion apart base one one :=
  ⟨rfl, fun _ _ => Iff.rfl, based, based⟩

theorem symm (companion : Companion apart base one two) : Companion apart base two one :=
  ⟨companion.fields.symm, fun id same => (companion.visited id same).symm, companion.otherBased,
    companion.based⟩

theorem trans (first : Companion apart base one two) (second : Companion apart base two three) :
    Companion apart base one three :=
  ⟨first.fields.trans second.fields, fun id same => (first.visited id same).trans (second.visited id same),
    first.based, second.otherBased⟩

theorem mark (companion : Companion apart base one two) (id : SchemaId) :
    Companion apart base (one.mark id) (two.mark id) := by
  refine ⟨companion.fields, fun other same => ?_, fun _ listed => .tail _ (companion.based listed),
    fun _ listed => .tail _ (companion.otherBased listed)⟩
  simp only [Collected.mark, List.mem_cons, companion.visited other same]

theorem mark_apart (based : base ⊆ one.visited) (here : apart id) :
    Companion apart base one (one.mark id) := by
  refine ⟨rfl, fun other same => ?_, based, fun _ listed => .tail _ (based listed)⟩
  have unlike : other ≠ id := fun equal => same (equal ▸ here)
  simp only [Collected.mark, List.mem_cons, unlike, false_or]

theorem absorb (companion : Companion apart base one two) (shape : Shape) :
    Companion apart base (one.absorb shape) (two.absorb shape) :=
  ⟨congrArg (·.absorb shape) companion.fields, companion.visited, companion.based, companion.otherBased⟩

end Companion

/-- Two steps of a search in one state that stay abreast, or fail alike. -/
inductive Abreast (apart : SchemaId → Prop) (base : List SchemaId) :
    Except SchemaError Collected × ResolverState → Except SchemaError Collected × ResolverState → Prop
  | limited {found otherFound : Except SchemaError Collected × ResolverState} (limited : IsLimited found.1) :
      Abreast apart base found otherFound
  | otherLimited {found otherFound : Except SchemaError Collected × ResolverState}
      (limited : IsLimited otherFound.1) : Abreast apart base found otherFound
  | failed (error : SchemaError) (after otherAfter : ResolverState) :
      Abreast apart base (.error error, after) (.error error, otherAfter)
  | found {one two : Collected} (companion : Companion apart base one two) (after : ResolverState) :
      Abreast apart base (.ok one, after) (.ok two, after)

namespace Abreast

theorem bind {run other : Run Collected} {next otherNext : Collected → Run Collected}
    (first : Abreast apart base (run state) (other state))
    (rest : ∀ one two middle, run state = (.ok one, middle) → Companion apart base one two →
      Abreast apart base (next one middle) (otherNext two middle)) :
    Abreast apart base ((run >>= next) state) ((other >>= otherNext) state) := by
  generalize ran : run state = found at first
  generalize ran' : other state = otherFound at first
  cases first with
  | limited limited =>
      obtain ⟨outcome, after⟩ := found
      obtain ⟨limit, rfl⟩ := limited
      rw [bind_error ran]
      exact .limited ⟨limit, rfl⟩
  | otherLimited limited =>
      obtain ⟨outcome, after⟩ := otherFound
      obtain ⟨limit, rfl⟩ := limited
      rw [bind_error ran']
      exact .otherLimited ⟨limit, rfl⟩
  | failed error after otherAfter =>
      rw [bind_error ran, bind_error ran']
      exact .failed error after otherAfter
  | found companion middle =>
      rw [bind_ok ran, bind_ok ran']
      exact rest _ _ middle ran companion

/-- What both runs do first in the same state. -/
theorem of_first {α : Type} {first : Run α} {next otherNext : α → Run Collected}
    (rest : ∀ answer middle, first state = (.ok answer, middle) →
      Abreast apart base (next answer middle) (otherNext answer middle)) :
    Abreast apart base ((first >>= next) state) ((first >>= otherNext) state) := by
  cases ran : first state with
  | mk outcome middle =>
      cases outcome with
      | error error =>
          rw [bind_error ran, bind_error ran]
          exact .failed error middle middle
      | ok answer =>
          rw [bind_ok ran, bind_ok ran]
          exact rest answer middle ran

end Abreast

/-- Behind such a node nothing new is found. -/
def Harmless (core limit : Nat) (last : ResolverState) (apart : SchemaId → Prop) (base : List SchemaId)
    (id : SchemaId) : Prop :=
  ∀ steps state collected, state.Sound core → last ≤ state → base ⊆ collected.visited →
    IsLimited (enter limit steps (collectWithin limit steps) collected id state).1 ∨
      ∃ result, enter limit steps (collectWithin limit steps) collected id state = (.ok result, state) ∧
        Companion apart base collected result

/-- What a search reaches before a state, where the nodes apart are harmless. -/
structure Reaches (core limit : Nat) (last final : ResolverState) (apart : SchemaId → Prop)
    (base : List SchemaId) (reached : SchemaId → Prop) : Prop where
  onward : ∀ {id next}, reached id → Branches final id next → reached next
  harmless : ∀ {id}, apart id → reached id → Harmless core limit last apart base id

/-- Nodes that only resolve to what is reached. -/
def ResolveInto (final : ResolverState) (reached : SchemaId → Prop) (ids : List SchemaId) : Prop :=
  ∀ id ∈ ids, ∀ target, Resolves final id target → reached target

def CollectAbreast (core : Nat) (last final : ResolverState) (apart : SchemaId → Prop) (base : List SchemaId)
    (reached : SchemaId → Prop) (collect : Collected → List SchemaId → Run Collected) : Prop :=
  ∀ {one two ids others state}, state.Sound core → last ≤ state → (collect one ids state).2 ≤ final →
    Companion apart base one two → List.Forall₂ (Alike last) ids others → ResolveInto final reached ids →
    Abreast apart base (collect one ids state) (collect two others state)

theorem alike_refl (last : ResolverState) (ids : List SchemaId) : List.Forall₂ (Alike last) ids ids :=
  List.forall₂_same.mpr fun _ _ => .inl rfl

section

variable (reaches : Reaches core limit last final apart base reached)
  (stable : ∀ collected ids, Stable core (collect collected ids))
  (collects : CollectAbreast core last final apart base reached collect)

include reaches stable collects

theorem branchOut_abreast (sound : state.Sound core) (grown : last ≤ state)
    (ends : (branchOut limit steps collect one id state).2 ≤ final) (companion : Companion apart base one two)
    (here : reached id) :
    Abreast apart base (branchOut limit steps collect one id state)
      (branchOut limit steps collect two id state) := by
  refine .of_first fun union middle ran => ?_
  have grows : Grows core state middle := by
    simpa only [ran] using (distributeWithin_stable limit steps id state sound).leaves
  cases union with
  | none => exact .of_first fun shape after _ => .found (companion.absorb shape) after
  | some union =>
      have ends : (collect one [union] middle).2 ≤ final := by rwa [branchOut, bind_ok ran] at ends
      have meets : Meets (distributeWithin limit steps id) state _ _ := distributeWithin_meets limit steps sound
      have known := meets.answers _ _ ran
      have onward := le_trans (stable one [union] middle grows.sound).leaves.grown ends
      obtain ⟨_, node⟩ := grows.sound.union_of_distribution known
      refine collects grows.sound (le_trans grown grows.grown) ends companion (alike_refl last [union])
        fun branch listed target resolves => ?_
      cases List.mem_singleton.mp listed
      cases resolves.concrete (ResolverState.get?_later node onward) trivial
      exact reaches.onward here (.distributed (ResolverState.distribution_later known onward))

theorem explore_abreast (sound : state.Sound core) (grown : last ≤ state)
    (ends : (explore limit steps collect one id state).2 ≤ final) (companion : Companion apart base one two)
    (here : reached id) :
    Abreast apart base (explore limit steps collect one id state) (explore limit steps collect two id state) := by
  have within := le_trans (explore_stable stable limit steps one id state sound).leaves.grown ends
  cases found : state.arena.get? id with
  | none =>
      rw [explore, explore, bind_error (node_missing found), bind_error (node_missing found)]
      exact .failed _ state state
  | some node =>
      have later := ResolverState.get?_later found within
      rw [explore, bind_ok (node_apply found)] at ends
      rw [explore, explore, bind_ok (node_apply found), bind_ok (node_apply found)]
      cases node with
      | union members =>
          exact collects sound grown ends companion (alike_refl last members) fun member listed target resolves =>
            reaches.onward here (.union later listed resolves)
      | intersection members =>
          exact collects sound grown ends companion (alike_refl last members) fun member listed target resolves =>
            reaches.onward here (.intersection later listed resolves)
      | interface _ _ _ | mapped _ _ =>
          exact branchOut_abreast reaches stable collects sound grown ends companion here
      | _ => exact .found companion state

end

section

variable (reaches : Reaches core limit last final apart base reached)
  (collects : CollectAbreast core last final apart base reached (collectWithin limit steps))

include reaches collects

theorem enter_abreast (sound : state.Sound core) (grown : last ≤ state)
    (ends : (enter limit steps (collectWithin limit steps) one id state).2 ≤ final)
    (companion : Companion apart base one two) (here : reached id) :
    Abreast apart base (enter limit steps (collectWithin limit steps) one id state)
      (enter limit steps (collectWithin limit steps) two id state) := by
  by_cases strange : apart id
  · -- Either search may have met the node before; both end where they are.
    rcases reaches.harmless strange here steps state one sound grown companion.based with
      limited | ⟨result, ran, beside⟩
    · exact .limited limited
    rcases reaches.harmless strange here steps state two sound grown companion.otherBased with
      limited | ⟨otherResult, ran', beside'⟩
    · exact .otherLimited limited
    rw [ran, ran']
    exact .found (beside.symm.trans (companion.trans beside')) state
  by_cases inside : id ∈ one.visited
  · rw [enter_met inside, enter_met ((companion.visited id strange).mp inside)]
    exact .found companion state
  · rw [enter_unmet inside] at ends
    rw [enter_unmet inside, enter_unmet fun met => inside ((companion.visited id strange).mpr met)]
    exact explore_abreast reaches (collectWithin_stable limit steps) collects sound grown ends
      (companion.mark id) here

theorem visit_abreast (sound : state.Sound core) (grown : last ≤ state)
    (ends : (visit limit steps (collectWithin limit steps) one id state).2 ≤ final)
    (companion : Companion apart base one two) (alike : Alike last id other)
    (leads : ∀ target, Resolves final id target → reached target) :
    Abreast apart base (visit limit steps (collectWithin limit steps) one id state)
      (visit limit steps (collectWithin limit steps) two other state) := by
  have entered (target : SchemaId) (middle : ResolverState)
      (ran : resolveWithin limit steps id state = (.ok target, middle)) :
      Abreast apart base (enter limit steps (collectWithin limit steps) one target middle)
        (enter limit steps (collectWithin limit steps) two target middle) := by
    have meets := resolveWithin_meets limit steps id state sound
    have grows := (meets.always_ok ran).grows
    rw [visit_eq, bind_ok ran] at ends
    have stable := enter_stable (collectWithin_stable limit steps) limit steps one target middle grows.sound
    have resolves := (meets.answers _ _ ran).1.later (le_trans stable.leaves.grown ends)
    exact enter_abreast reaches collects grows.sound (le_trans grown grows.grown) ends companion
      (leads target resolves)
  rw [visit_eq, visit_eq]
  rcases alike with rfl | ⟨target, resolves, resolves'⟩
  · exact .of_first entered
  · cases steps with
    | zero => exact .limited ⟨limit, congrArg Prod.fst (bind_error rfl)⟩
    | succ steps =>
        have ran := (resolves.later grown).lasts limit steps
        rw [bind_ok ran.now, bind_ok ((resolves'.later grown).lasts limit steps).now]
        exact entered target state ran.now

theorem foldVisits_abreast : CollectAbreast core last final apart base reached
    fun collected ids => ids.foldlM (visit limit steps (collectWithin limit steps)) collected := by
  intro one two ids others state sound grown ends companion alike leads
  induction alike generalizing one two state with
  | nil => exact .found companion state
  | @cons id other rest more here _ ih =>
      simp only [List.foldlM_cons] at ends ⊢
      have part : Stable core (visit limit steps (collectWithin limit steps) one id) :=
        visit_stable (collectWithin_stable limit steps) limit steps one id
      have stays := first_le_bind sound part fun found =>
        foldVisits_stable (collectWithin_stable limit steps) limit steps found rest
      refine .bind (visit_abreast reaches collects sound grown (le_trans stays ends) companion here
        (leads id (List.mem_cons_self ..))) fun one two middle ran companion => ?_
      have grows : Grows core state middle := by simpa only [ran] using (part state sound).leaves
      rw [bind_ok ran] at ends
      exact ih grows.sound (le_trans grown grows.grown) ends companion
        fun other listed => leads other (List.mem_cons_of_mem _ listed)

end

/-- Two searches from one state that begin alike stay abreast. -/
theorem collectWithin_abreast (reaches : Reaches core limit last final apart base reached) (steps : Nat) :
    CollectAbreast core last final apart base reached (collectWithin limit steps) := by
  induction steps with
  | zero => exact fun _ _ _ _ _ _ => .failed _ _ _
  | succ steps ih => exact foldVisits_abreast reaches ih

end Conform.Alias
