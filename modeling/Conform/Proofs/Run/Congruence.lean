import Conform.Proofs.Run.Logic

/-! Relations between runs that sequences respect.  What is put together from parts by the
rules of a check is related as soon as the parts are. -/

namespace Conform.Run

variable {α β : Type} {always : ResolverState → Prop} {post : α → Prop} {goal : β → Prop}
  {run other first first' : Run α} {next next' : α → Run β}

structure Congruence where
  Related : {α : Type} → Run α → Run α → Prop
  pure : ∀ {α : Type} (answer : α), Related (pure answer : Run α) (pure answer)
  bind : ∀ {α β : Type} {first first' : Run α} {next next' : α → Run β}, Related first first' →
    (∀ answer, Related (next answer) (next' answer)) → Related (first >>= next) (first' >>= next')

theorem Congruence.foldlM (congruence : Congruence) {visit visit' : β → α → Run β} {items : List α}
    (visits : ∀ start, ∀ item ∈ items, congruence.Related (visit start item) (visit' start item))
    (start : β) : congruence.Related (items.foldlM visit start) (items.foldlM visit' start) := by
  induction items generalizing start with
  | nil => exact congruence.pure start
  | cons item rest ih =>
      rw [List.foldlM_cons, List.foldlM_cons]
      exact congruence.bind (visits start item (List.mem_cons_self ..))
        (ih fun start other listed => visits start other (List.mem_cons_of_mem _ listed))

/-- Runs that are the same. -/
def identity : Congruence where
  Related := Eq
  pure _ := rfl
  bind first next := by rw [first, funext next]

/-- From every state with the property both runs do the same, and what they leave has the
property again. -/
def Coincide (always : ResolverState → Prop) (run other : Run α) : Prop :=
  ∀ state, always state → run state = other state ∧ always (other state).2

namespace Coincide

theorem of_kept (keeps : ∀ state, always state → always (run state).2) : Coincide always run run :=
  fun state holds => ⟨rfl, keeps state holds⟩

/-- A run that changes nothing. -/
theorem of_idle (idle : ∀ state, (run state).2 = state) : Coincide always run run :=
  .of_kept fun state holds => (idle state).symm ▸ holds

theorem pure (answer : α) : Coincide always (pure answer : Run α) (pure answer) :=
  .of_idle fun _ => rfl

theorem fail (error : SchemaError) : Coincide always (Run.fail error : Run α) (Run.fail error) :=
  .of_idle fun _ => rfl

theorem read (part : ResolverState → α) : Coincide always (Run.read part) (Run.read part) :=
  .of_idle fun _ => rfl

theorem node (id : SchemaId) : Coincide always (Run.node id) (Run.node id) :=
  .of_idle fun state => by
    cases found : state.arena.get? id with
    | some node => rw [node_apply found]
    | none => rw [node_missing found]

/-- What the first run answers may be used for the rest. -/
theorem bind_of (part : Coincide always first first')
    (answers : ∀ state answer after, always state → first' state = (.ok answer, after) → post answer)
    (rest : ∀ answer, post answer → Coincide always (next answer) (next' answer)) :
    Coincide always (first >>= next) (first' >>= next') := by
  intro state holds
  obtain ⟨same, kept⟩ := part state holds
  cases ran : first' state with
  | mk outcome middle =>
      rw [ran] at same kept
      cases outcome with
      | ok answer =>
          rw [bind_ok same, bind_ok ran]
          exact rest answer (answers state answer middle holds ran) middle kept
      | error error =>
          rw [bind_error same, bind_error ran]
          exact ⟨rfl, kept⟩

theorem bind (part : Coincide always first first')
    (rest : ∀ answer, Coincide always (next answer) (next' answer)) :
    Coincide always (first >>= next) (first' >>= next') :=
  part.bind_of (fun _ _ _ _ _ => trivial) fun answer _ => rest answer

end Coincide

def coincidence (always : ResolverState → Prop) : Congruence where
  Related := Coincide always
  pure := .pure
  bind := .bind

/-- From every state with the property the run has an answer as described, and what it leaves
has the property again. -/
def Succeeds (always : ResolverState → Prop) (run : Run α) (post : α → Prop) : Prop :=
  ∀ state, always state → ∃ answer after, run state = (.ok answer, after) ∧ always after ∧ post answer

namespace Succeeds

theorem pure {answer : α} (answers : post answer) : Succeeds always (pure answer : Run α) post :=
  fun state holds => ⟨answer, state, rfl, holds, answers⟩

theorem bind (part : Succeeds always first post)
    (rest : ∀ answer, post answer → Succeeds always (next answer) goal) :
    Succeeds always (first >>= next) goal := by
  intro state holds
  obtain ⟨answer, middle, ran, kept, answers⟩ := part state holds
  rw [bind_ok ran]
  exact rest answer answers middle kept

theorem imp {weaker : α → Prop} (succeeds : Succeeds always run post)
    (implies : ∀ answer, post answer → weaker answer) : Succeeds always run weaker := by
  intro state holds
  obtain ⟨answer, after, ran, kept, answers⟩ := succeeds state holds
  exact ⟨answer, after, ran, kept, implies answer answers⟩

end Succeeds

def success (always : ResolverState → Prop) : Congruence where
  Related run _ := Succeeds always run fun _ => True
  pure _ := .pure trivial
  bind part rest := part.bind fun answer _ => rest answer

theorem Succeeds.foldlM {visit : β → α → Run β} {items : List α}
    (visits : ∀ start, ∀ item ∈ items, Succeeds always (visit start item) fun _ => True) (start : β) :
    Succeeds always (items.foldlM visit start) fun _ => True :=
  have related : (success always).Related (items.foldlM visit start) (items.foldlM visit start) :=
    (success always).foldlM visits start
  related

end Conform.Run
