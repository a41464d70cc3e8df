import Conform.Proofs.Resolver.Collecting

/-! Stable runs.  They keep a state sound, and give an answer again in every
later state, where they add nothing. -/

namespace Conform.Resolver

open Run

variable {core : Nat} {α β : Type} {run first : Run α} {next : α → Run β}
  {state after : ResolverState} {limit : Nat} {answer : α} {id target : SchemaId} {chain : CombinatorChain}
  {found : Option (CombinatorChain × List SchemaId)}

/-- The answer in all sound states from here on. -/
def Settles (core : Nat) (run : Run α) (state : ResolverState) (answer : α) : Prop :=
  ∀ later, state ≤ later → later.Sound core → run later = (.ok answer, later)

theorem Settles.of_lasts (lasts : Lasts run state answer) : Settles core run state answer :=
  fun later grown _ => lasts later grown

def Stable (core : Nat) (run : Run α) : Prop :=
  ∀ state, state.Sound core → Meets run state (Grows core state) fun answer after =>
    Settles core run after answer

namespace Stable

theorem pure (answer : α) : Stable core (pure answer : Run α) :=
  fun _ sound => .pure (.refl sound) fun _ _ _ => rfl

theorem fail (error : SchemaError) : Stable core (Run.fail error : Run α) :=
  fun _ sound => .fail (.refl sound)

theorem node (id : SchemaId) : Stable core (Run.node id) :=
  fun _ sound => (Meets.node id (.refl sound)).imp (fun _ grows => grows)
    fun _ _ _ ⟨found, same⟩ => same ▸ .of_lasts (.node found)

theorem bind (part : Stable core first) (rest : ∀ answer, Stable core (next answer)) :
    Stable core (first >>= next) := by
  intro state sound
  refine .bind (part state sound) ?_
  intro answer middle grows settles
  refine (rest answer middle grows.sound).imp (fun _ => grows.trans) ?_
  intro result after grown settled later later_grown later_sound
  exact (bind_ok (settles later (le_trans grown.grown later_grown) later_sound)).trans
    (settled later later_grown later_sound)

/-- An answer is given again wherever the state has grown. -/
theorem again (stable : Stable core run) (sound : state.Sound core)
    (ran : run state = (.ok answer, after)) : Settles core run after answer :=
  (stable state sound).answers answer after ran

theorem grows (stable : Stable core run) (sound : state.Sound core)
    (ran : run state = (.ok answer, after)) : Grows core state after :=
  (stable state sound).always_ok ran

end Stable

/-- The run gives the answer and adds nothing. -/
def Yields (run : Run α) (state : ResolverState) (answer : α) : Prop :=
  run state = (.ok answer, state)

theorem Yields.unique {run : Run α} {answer other : α} (yields : Yields run state answer)
    (again : Yields run state other) : answer = other := by
  cases yields.symm.trans again
  rfl

/-- Both parts of a sequence add nothing either. -/
theorem Yields.split {first : Run α} {next : α → Run β} {answer : β} (part : Stable core first)
    (rest : ∀ answer, Stable core (next answer)) (sound : state.Sound core)
    (yields : Yields (first >>= next) state answer) :
    ∃ found, Yields first state found ∧ Yields (next found) state answer := by
  obtain ⟨found, middle, ran, ran'⟩ := of_bind_ok yields
  have grows := part.grows sound ran
  have same : middle = state :=
    le_antisymm ((rest found).grows grows.sound ran').grown grows.grown
  subst same
  exact ⟨found, ran, ran'⟩

theorem resolveWithin_stable (limit steps : Nat) (id : SchemaId) :
    Stable core (resolveWithin limit steps id) := by
  intro state sound
  cases steps with
  | zero => exact .fail (.refl sound)
  | succ steps =>
      exact (resolveWithin_meets _ _ id state sound).imp (fun _ => Resolving.grows)
        fun _ _ _ post => .of_lasts (post.1.lasts _ steps)

theorem resolve_stable (limit : Nat) (id : SchemaId) : Stable core (resolve limit id) :=
  resolveWithin_stable limit limit id

theorem Yields.resolves {steps : Nat} (sound : state.Sound core)
    (yields : Yields (resolveWithin limit steps id) state target) : Resolves state id target :=
  ((resolveWithin_meets limit steps id state sound).answers target state yields).1

theorem flattenWithin_stable (limit steps : Nat) (pending : List SchemaId) (id : SchemaId) :
    Stable core (flattenWithin limit steps pending id) :=
  fun state sound => (flattenWithin_meets limit steps pending id state sound).imp
    (fun _ => Resolving.grows) fun _ _ _ post => .of_lasts (flattenWithin_known post.1 limit steps pending)

theorem flatten_stable (limit : Nat) (id : SchemaId) : Stable core (flatten limit id) :=
  flattenWithin_stable limit limit [] id

/-- A settled way down takes a single step at every combinator. -/
theorem Walks.lasts {budget : Nat} (walks : Walks state budget chain target found)
    (limit steps more : Nat) :
    Lasts (walkChain limit (resolveWithin limit (steps + 1)) (budget + more) chain target) state
      found := by
  intro later grown
  refine walkChain_widen ?_ more
  have lifted (budget : Nat) : ∀ {chain : CombinatorChain} {target : SchemaId}
      {before after : ResolverState}, walkChain 0 (resolveWithin 0 1) budget chain target before =
        (.ok found, after) → walkChain limit (resolveWithin limit (steps + 1)) budget chain target
          before = (.ok found, after) := by
    induction budget with
    | zero => exact fun ran => by cases ran
    | succ budget ih =>
        intro chain target before after ran
        obtain ⟨resolved, middle, resolves, rest⟩ := of_bind_ok ran
        obtain ⟨node, last, reads, rest⟩ := of_bind_ok rest
        refine (bind_ok (follow_recalled resolves)).trans ((bind_ok reads).trans ?_)
        cases node with
        | mapped combinator inner => exact ih rest
        | _ => exact rest
  exact lifted budget (walks later grown)

theorem Undistributed.lasts (core : Nat) (undistributed : Undistributed state id) :
    ∃ limit, ∀ more steps later, state ≤ later → later.Sound core →
      distributeWithin (limit + more) (steps + 2) id later = (.ok none, later) := by
  have settled (limit steps : Nat) {later : ResolverState} (grown : state ≤ later)
      (sound : later.Sound core) (answer : distributeNode limit (steps + 1) id later = (.ok none, later)) :
      distributeWithin limit (steps + 2) id later = (.ok none, later) := by
    have unknown := sound.undistributed_unknown (undistributed.later grown)
    simp only [distributeWithin, bind_ok (read_apply _), unknown]
    exact answer
  cases undistributed with
  | interface node =>
      refine ⟨0, fun more steps later grown sound => settled _ _ grown sound ?_⟩
      exact (bind_ok (node_apply (ResolverState.get?_later node grown))).trans rfl
  | @mapped combinator target budget node walks =>
      refine ⟨budget, fun more steps later grown sound => settled _ _ grown sound ?_⟩
      refine (bind_ok (node_apply (ResolverState.get?_later node grown))).trans ?_
      exact (bind_ok (walks.lasts _ _ more later grown)).trans rfl

theorem distributeWithin_known {union : SchemaId} (known : state.distributions.find? id = some union)
    (limit steps : Nat) : Lasts (distributeWithin limit steps id) state (some union) := by
  intro later grown
  have found := ResolverState.distribution_later known grown
  simp only [distributeWithin, bind_ok (read_apply _), found, pure_apply]

/-- That nothing is distributed is settled at the same limit, with more steps as well. -/
theorem distributeNode_none {limit steps wide : Nat} (sound : state.Sound core)
    (ran : distributeNode limit steps id state = (.ok none, after)) (le : steps ≤ wide) :
    Lasts (distributeNode limit wide id) after none := by
  obtain ⟨node, middle, reads, rest⟩ := of_bind_ok ran
  obtain ⟨found, rfl⟩ := of_node_ok reads
  cases node with
  | mapped combinator target =>
      obtain ⟨answer, walked, walks, rest⟩ := of_bind_ok rest
      cases answer with
      | some answer =>
          obtain ⟨_, _, _, rest⟩ := of_bind_ok rest
          obtain ⟨_, _, _, rest⟩ := of_bind_ok rest
          obtain ⟨_, _, _, rest⟩ := of_bind_ok rest
          cases rest
      | none =>
          cases rest
          have meets : Meets (walkChain limit (resolveWithin limit steps) limit ⟨combinator, []⟩
              target) state _ _ := walkChain_meets limit steps limit sound (single_issued sound found)
          have access := ResolverState.get?_later found (meets.always_ok walks).grown
          cases steps with
          | zero =>
              cases limit with
              | zero => cases walks
              | succ limit =>
                  obtain ⟨_, _, resolves, -⟩ := of_bind_ok walks
                  cases resolves
          | succ steps =>
              obtain ⟨wide, rfl⟩ := Nat.exists_eq_add_one.mpr (Nat.lt_of_lt_of_le (Nat.succ_pos _) le)
              exact .bind (.node access) (.bind ((meets.answers _ _ walks).1 limit wide) .pure)
  | _ =>
      cases rest
      exact .bind (.node found) .pure

theorem distributeWithin_none {steps wide : Nat} (sound : state.Sound core)
    (ran : distributeWithin limit steps id state = (.ok none, after)) (le : steps ≤ wide) :
    Settles core (distributeWithin limit wide id) after none := by
  intro later grown later_sound
  cases known : state.distributions.find? id with
  | some union =>
      rw [distributeWithin_known known limit steps state (le_refl _)] at ran
      cases ran
  | none =>
      simp only [distributeWithin, bind_ok (read_apply _), known] at ran
      cases steps with
      | zero => cases ran
      | succ steps =>
          obtain ⟨wide, rfl⟩ := Nat.exists_eq_add_one.mpr (Nat.lt_of_lt_of_le (Nat.succ_pos _) le)
          have lasts := distributeNode_none sound ran (Nat.le_of_succ_le_succ le) later grown
          have distributes := (distributeNode_meets limit wide later_sound).answers _ _ lasts
          have unknown : later.distributions.find? id = none := by
            cases known' : later.distributions.find? id with
            | none => rfl
            | some union =>
                obtain ⟨_, _, node⟩ := later_sound.mapped_of_distribution known'
                have undistributed := distributes _ node rfl
                exact known'.symm.trans (later_sound.undistributed_unknown undistributed)
          simp only [distributeWithin, bind_ok (read_apply _), unknown]
          exact lasts

/-- The answer is given again with as many steps or more. -/
theorem distributeWithin_wider {steps wide : Nat} (sound : state.Sound core) (le : steps ≤ wide) :
    Meets (distributeWithin limit steps id) state (Grows core state) fun union after =>
      Settles core (distributeWithin limit wide id) after union := by
  have meets : Meets (distributeWithin limit steps id) state _ _ :=
    distributeWithin_meets limit steps sound
  refine ⟨meets.leaves, fun answer after ran => ?_⟩
  cases answer with
  | some union => exact .of_lasts (distributeWithin_known (meets.answers _ _ ran) limit wide)
  | none => exact distributeWithin_none sound ran le

theorem distributeWithin_stable (limit steps : Nat) (id : SchemaId) :
    Stable core (distributeWithin limit steps id) :=
  fun _ sound => distributeWithin_wider sound (Nat.le_refl _)

section

variable {collect : Collected → List SchemaId → Run Collected}

theorem visit_stable (collects : ∀ collected ids, Stable core (collect collected ids))
    (limit steps : Nat) (collected : Collected) (id : SchemaId) :
    Stable core (visit limit steps collect collected id) := by
  refine .bind (resolveWithin_stable limit steps id) fun resolved => ?_
  split
  · exact .pure _
  · refine .bind (.node resolved) fun node => ?_
    cases node with
    | union members | intersection members => exact collects _ _
    | interface _ _ _ | mapped _ _ =>
        refine .bind (distributeWithin_stable limit steps resolved) fun union => ?_
        cases union with
        | some union => exact collects _ _
        | none => exact .bind (flattenWithin_stable limit steps [] resolved) fun _ => .pure _
    | _ => exact .pure _

theorem foldVisits_stable (collects : ∀ collected ids, Stable core (collect collected ids))
    (limit steps : Nat) (collected : Collected) (ids : List SchemaId) :
    Stable core (ids.foldlM (visit limit steps collect) collected) := by
  induction ids generalizing collected with
  | nil => exact .pure _
  | cons id rest ih =>
      rw [List.foldlM_cons]
      exact .bind (visit_stable collects limit steps collected id) fun _ => ih _

theorem collectWithin_stable (limit steps : Nat) (collected : Collected) (ids : List SchemaId) :
    Stable core (collectWithin limit steps collected ids) := by
  induction steps generalizing collected ids with
  | zero => exact .fail _
  | succ steps ih => exact foldVisits_stable ih limit steps collected ids

end

theorem foreignFields_stable (limit : Nat) (id : SchemaId) : Stable core (foreignFields limit id) :=
  fun _ sound => (foreignFields_meets limit sound).imp (fun _ grows => grows)
    fun fields after _ known later grown _ => by
      have found := ResolverState.foreign_later known grown
      simp only [foreignFields, bind_ok (read_apply _), found, pure_apply]

end Conform.Resolver
