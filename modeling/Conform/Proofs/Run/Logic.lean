import Conform.Proofs.Run.Growth

/-! Reasoning about runs.  `Meets` follows a run through its steps; `Lasts`
says that its answer is settled: whatever is added later, the run gives it
again and adds nothing. -/

namespace Conform.Run

variable {α β : Type} {run first : Run α} {next : α → Run β} {state before after : ResolverState}
  {answer : α} {result : β} {error : SchemaError}

@[simp] theorem pure_apply : (pure answer : Run α) state = (.ok answer, state) :=
  rfl

@[simp] theorem succeed_apply : succeed answer state = (.ok answer, state) :=
  rfl

@[simp] theorem read_apply (part : ResolverState → α) : read part state = (.ok (part state), state) :=
  rfl

theorem ofExcept_apply (result : Except SchemaError α) :
    ofExcept result state = (result, state) := by
  cases result <;> rfl

theorem node_apply {id : SchemaId} {node : Node} (found : state.arena.get? id = some node) :
    Run.node id state = (.ok node, state) := by
  simp only [Run.node, found]

theorem node_missing {id : SchemaId} (missing : state.arena.get? id = none) :
    Run.node id state = (.error (.unknownId id), state) := by
  simp only [Run.node, missing]

theorem of_node_ok {id : SchemaId} {node : Node} (ran : Run.node id state = (.ok node, after)) :
    state.arena.get? id = some node ∧ state = after := by
  cases found : state.arena.get? id with
  | some here =>
      cases (node_apply found).symm.trans ran
      exact ⟨rfl, rfl⟩
  | none => cases (node_missing found).symm.trans ran

theorem bind_ok (ran : first state = (.ok answer, after)) :
    (first >>= next) state = next answer after := by
  change andThen first next state = _
  simp only [andThen, ran]

theorem bind_error (ran : first state = (.error error, after)) :
    (first >>= next) state = (.error error, after) := by
  change andThen first next state = _
  simp only [andThen, ran]

/-- A sequence depends on what its first part does there. -/
theorem bind_congr_first {other : Run α} (same : first state = other state) :
    (first >>= next) state = (other >>= next) state := by
  change andThen first next state = andThen other next state
  simp only [andThen, same]

theorem bind_assoc {γ : Type} (first : Run α) (next : α → Run β) (last : β → Run γ) :
    (first >>= next) >>= last = first >>= fun answer => next answer >>= last := by
  funext state
  cases ran : first state with
  | mk outcome middle =>
      cases outcome with
      | error error => rw [bind_error ran, bind_error (bind_error ran)]
      | ok answer =>
          rw [bind_ok ran]
          change andThen (andThen first next) last state = andThen (next answer) last middle
          simp only [andThen, ran]

/-- An answer of a sequence comes from an answer of its first part. -/
theorem of_bind_ok (ran : (first >>= next) state = (.ok result, after)) :
    ∃ answer middle, first state = (.ok answer, middle) ∧ next answer middle = (.ok result, after) := by
  cases part : first state with
  | mk outcome middle =>
      cases outcome with
      | ok answer => exact ⟨answer, middle, rfl, (bind_ok part).symm.trans ran⟩
      | error error => simp [bind_error part] at ran

/-- An error of a sequence is that of its first part, whatever were to follow, or comes later. -/
theorem of_bind_error (ran : (first >>= next) state = (.error error, after)) :
    (∀ other : α → Run β, (first >>= other) state = (.error error, after)) ∨
      ∃ answer middle, first state = (.ok answer, middle) ∧ next answer middle = (.error error, after) := by
  cases part : first state with
  | mk outcome middle =>
      cases outcome with
      | ok answer => exact .inr ⟨answer, middle, rfl, (bind_ok part).symm.trans ran⟩
      | error failed =>
          cases (bind_error part).symm.trans ran
          exact .inl fun _ => bind_error part

theorem alloc_apply (node : Node) (state : ResolverState) :
    Run.alloc node state = (.ok ⟨state.arena.size⟩,
      { state with arena := (state.arena.alloc node).2 }) :=
  rfl

theorem le_alloc (node : Node) (state : ResolverState) :
    state ≤ { state with arena := (state.arena.alloc node).2 } :=
  ⟨Arena.le_alloc _ _, le_refl _, le_refl _, le_refl _, le_refl _⟩

section

variable {id projected : SchemaId} {shape : Shape} {fields : ForeignFields}

theorem keepShape_apply : keepShape id shape state =
    (.ok (state.shapes.settle id shape).1,
      { state with shapes := (state.shapes.settle id shape).2 }) :=
  rfl

theorem le_keepShape (state : ResolverState) (id : SchemaId) (shape : Shape) :
    state ≤ { state with shapes := (state.shapes.settle id shape).2 } :=
  ⟨le_refl _, Memo.le_settle _ _ _, le_refl _, le_refl _, le_refl _⟩

theorem keepForeign_apply : keepForeign id fields state =
    (.ok (state.foreign.settle id fields).1,
      { state with foreign := (state.foreign.settle id fields).2 }) :=
  rfl

theorem le_keepForeign (state : ResolverState) (id : SchemaId) (fields : ForeignFields) :
    state ≤ { state with foreign := (state.foreign.settle id fields).2 } :=
  ⟨le_refl _, le_refl _, Memo.le_settle _ _ _, le_refl _, le_refl _⟩

theorem keepProjection_apply : keepProjection id projected state =
    (.ok (state.projections.settle id projected).1,
      { state with projections := (state.projections.settle id projected).2 }) :=
  rfl

theorem le_keepProjection (state : ResolverState) (id projected : SchemaId) :
    state ≤ { state with projections := (state.projections.settle id projected).2 } :=
  ⟨le_refl _, le_refl _, le_refl _, Memo.le_settle _ _ _, le_refl _⟩

end

/-- The answer is given from here on, without a change of the state. -/
def Lasts (run : Run α) (state : ResolverState) (answer : α) : Prop :=
  ∀ later, state ≤ later → run later = (.ok answer, later)

theorem Lasts.now (lasts : Lasts run state answer) : run state = (.ok answer, state) :=
  lasts state (le_refl state)

theorem Lasts.later (lasts : Lasts run before answer) (grown : before ≤ after) :
    Lasts run after answer :=
  fun later later_grown => lasts later (le_trans grown later_grown)

theorem Lasts.unique {other : α} (lasts : Lasts run state answer) (same : Lasts run state other) :
    answer = other := by
  have equal := lasts.now.symm.trans same.now
  simpa using equal

theorem Lasts.pure : Lasts (pure answer : Run α) state answer :=
  fun _ _ => rfl

theorem Lasts.node {id : SchemaId} {node : Node} (found : state.arena.get? id = some node) :
    Lasts (Run.node id) state node :=
  fun _ grown => node_apply (ResolverState.get?_later found grown)

theorem Lasts.bind (ran : Lasts first state answer) (rest : Lasts (next answer) state result) :
    Lasts (first >>= next) state result :=
  fun later grown => (bind_ok (ran later grown)).trans (rest later grown)

/-- What is left of a settled sequence is settled. -/
theorem Lasts.onward (whole : Lasts (first >>= next) state result) (part : Lasts first state answer) :
    Lasts (next answer) state result :=
  fun later grown => (bind_ok (part later grown)).symm.trans (whole later grown)

/-- The state that the run leaves satisfies `always`, and an answer satisfies
`post` besides. -/
structure Meets (run : Run α) (state : ResolverState) (always : ResolverState → Prop)
    (post : α → ResolverState → Prop) : Prop where
  leaves : always (run state).2
  answers : ∀ answer after, run state = (.ok answer, after) → post answer after

variable {always weaker : ResolverState → Prop} {post : α → ResolverState → Prop}
  {goal : β → ResolverState → Prop}

theorem Meets.always_ok (meets : Meets run state always post)
    (ran : run state = (.ok answer, after)) : always after := by
  simpa only [ran] using meets.leaves

theorem Meets.of_ok (ran : run state = (.ok answer, after)) (leaves : always after)
    (answers : post answer after) : Meets run state always post := by
  refine ⟨by simpa only [ran] using leaves, fun other later again => ?_⟩
  cases ran.symm.trans again
  exact answers

theorem Meets.of_error (ran : run state = (.error error, after)) (leaves : always after) :
    Meets run state always post := by
  refine ⟨by simpa only [ran] using leaves, fun other later again => ?_⟩
  cases ran.symm.trans again

theorem Meets.imp {other : α → ResolverState → Prop} (meets : Meets run state always post)
    (leaves : ∀ after, always after → weaker after)
    (answers : ∀ answer after, always after → post answer after → other answer after) :
    Meets run state weaker other :=
  ⟨leaves _ meets.leaves, fun answer after ran =>
    answers answer after (meets.always_ok ran) (meets.answers answer after ran)⟩

/-- What is always left is weakened, and stays known of an answer. -/
theorem Meets.keep (meets : Meets run state always post)
    (leaves : ∀ after, always after → weaker after) :
    Meets run state weaker fun answer after => always after ∧ post answer after :=
  meets.imp leaves fun _ _ stays answers => ⟨stays, answers⟩

theorem Meets.bind (part : Meets first state always post)
    (rest : ∀ answer middle, always middle → post answer middle →
      Meets (next answer) middle always goal) :
    Meets (first >>= next) state always goal := by
  cases ran : first state with
  | mk outcome middle =>
      cases outcome with
      | ok answer =>
          have continued := rest answer middle (part.always_ok ran) (part.answers answer middle ran)
          refine ⟨by simpa only [bind_ok ran] using continued.leaves, fun result after done => ?_⟩
          exact continued.answers result after ((bind_ok ran).symm.trans done)
      | error error =>
          exact .of_error (bind_error ran) (by simpa only [ran] using part.leaves)

theorem Meets.pure (leaves : always state) (answers : post answer state) :
    Meets (pure answer : Run α) state always post :=
  .of_ok rfl leaves answers

theorem Meets.fail (leaves : always state) : Meets (fail error : Run α) state always post :=
  .of_error rfl leaves

theorem Meets.read (part : ResolverState → α) (leaves : always state) :
    Meets (read part) state always fun answer after => answer = part state ∧ state = after :=
  .of_ok rfl leaves ⟨rfl, rfl⟩

theorem Meets.node (id : SchemaId) (leaves : always state) :
    Meets (Run.node id) state always fun node after =>
      state.arena.get? id = some node ∧ state = after := by
  cases found : state.arena.get? id with
  | some node => exact .of_ok (node_apply found) leaves ⟨rfl, rfl⟩
  | none => exact .of_error (node_missing found) leaves

/-- Whatever the state, an answer satisfies `post`. -/
def Ensures (run : Run α) (post : α → Prop) : Prop :=
  ∀ state answer after, run state = (.ok answer, after) → post answer

section

variable {post : α → Prop} {goal : β → Prop}

theorem Ensures.pure (answers : post answer) : Ensures (pure answer : Run α) post := by
  intro _ result last ran
  cases ran
  exact answers

theorem Ensures.fail : Ensures (fail error : Run α) post := by
  intro _ result last ran
  cases ran

theorem Ensures.bind (part : Ensures first post)
    (rest : ∀ answer, post answer → Ensures (next answer) goal) :
    Ensures (first >>= next) goal := by
  intro _ result last ran
  obtain ⟨answer, middle, begun, continued⟩ := of_bind_ok ran
  exact rest answer (part _ answer middle begun) middle result last continued

/-- What the first part answers does not matter. -/
theorem Ensures.of_next (rest : ∀ answer, Ensures (next answer) goal) :
    Ensures (first >>= next) goal := by
  intro _ result last ran
  obtain ⟨answer, middle, -, continued⟩ := of_bind_ok ran
  exact rest answer middle result last continued

end

end Conform.Run
