import Conform.Proofs.Alike.Surveys
import Conform.Proofs.Resolver.Steady

/-! Searches within a limit.  A search asks whether a union stands for a branch with the steps that
it has left by then; with all steps that the limit allows the answer is the same.  So whatever is
remembered of a search under a limit can be followed again under that limit, branch by branch. -/

namespace Conform.Resolver

open Run

variable {core limit steps : Nat} {α β : Type} {state before after : ResolverState}
  {id start : SchemaId} {visited : List SchemaId} {collected : Collected} {fields : ForeignFields}
  {run : Run α} {collect : Collected → List SchemaId → Run Collected}

/-- Of an interface or combinator the limit lets decide whether a union stands for it. -/
def Answered (core limit : Nat) (state : ResolverState) (branch : SchemaId) : Prop :=
  ∃ node, state.arena.get? branch = some node ∧
    (node.isInterfaceLike = true → ∃ union, Settles core (distribute limit branch) state union)

theorem Answered.later (answered : Answered core limit before id) (grown : before ≤ after) :
    Answered core limit after id := by
  obtain ⟨node, found, settles⟩ := answered
  refine ⟨node, ResolverState.get?_later found grown, fun like => ?_⟩
  obtain ⟨union, settles⟩ := settles like
  exact ⟨union, fun later later_grown => settles later (le_trans grown later_grown)⟩

def AnsweredAll (core limit : Nat) (state : ResolverState) (visited : List SchemaId) : Prop :=
  ∀ branch ∈ visited, Answered core limit state branch

theorem AnsweredAll.later (answered : AnsweredAll core limit before visited) (grown : before ≤ after) :
    AnsweredAll core limit after visited :=
  fun branch inside => (answered branch inside).later grown

theorem AnsweredAll.mark (answered : AnsweredAll core limit state visited)
    (here : Answered core limit state id) : AnsweredAll core limit state (id :: visited) :=
  List.forall_mem_cons.mpr ⟨here, answered⟩

def CollectAnswers (core limit : Nat) (collect : Collected → List SchemaId → Run Collected) : Prop :=
  ∀ collected ids state, state.Sound core → AnsweredAll core limit state collected.visited →
    Meets (collect collected ids) state (Grows core state) fun result after =>
      AnsweredAll core limit after result.visited

theorem visit_answers (collects : CollectAnswers core limit collect) (le : steps ≤ limit)
    (sound : state.Sound core) (answered : AnsweredAll core limit state collected.visited) :
    Meets (visit limit steps collect collected id) state (Grows core state) fun result after =>
      AnsweredAll core limit after result.visited := by
  refine .bind ((resolveWithin_stable limit steps id state sound).imp (fun _ grows => grows)
    fun _ _ _ _ => trivial) ?_
  intro resolved middle grows _
  have answered := answered.later grows.grown
  split
  · exact .pure grows answered
  · refine .bind (.node resolved grows) ?_
    rintro node _ - ⟨found, rfl⟩
    have unlike (plain : node.isInterfaceLike = false) :
        AnsweredAll core limit middle (resolved :: collected.visited) :=
      answered.mark ⟨node, found, fun like => Bool.noConfusion (plain.symm.trans like)⟩
    have within {marked : Collected} (inner : List SchemaId) {last : ResolverState}
        (grows : Grows core state last) (answered : AnsweredAll core limit last marked.visited) :
        Meets (collect marked inner) last (Grows core state) fun result after =>
          AnsweredAll core limit after result.visited :=
      (collects marked inner last grows.sound answered).imp (fun _ => grows.trans) fun _ _ _ all => all
    cases node with
    | union members | intersection members => exact within members grows (unlike rfl)
    | interface _ _ _ | mapped _ _ =>
        refine .bind ((distributeWithin_wider grows.sound le).imp (fun _ => grows.trans)
          fun _ _ grown settles => And.intro grown settles) ?_
        rintro union last grows' ⟨grown, settles⟩
        have marked : AnsweredAll core limit last (resolved :: collected.visited) :=
          (answered.later grown.grown).mark
            ⟨_, ResolverState.get?_later found grown.grown, fun _ => ⟨union, settles⟩⟩
        cases union with
        | some union => exact within [union] grows' marked
        | none =>
            refine .bind ((flattenWithin_stable limit steps [] resolved last grows'.sound).imp
              (fun _ => grows'.trans) fun _ _ grown _ => grown.grown) ?_
            exact fun shape final grows grown => .pure grows (marked.later grown)
    | _ => exact .pure grows (unlike rfl)

theorem foldVisits_answers (collects : CollectAnswers core limit collect) (le : steps ≤ limit) :
    CollectAnswers core limit fun collected ids => ids.foldlM (visit limit steps collect) collected := by
  intro collected ids
  induction ids generalizing collected with
  | nil => exact fun state sound answered => .pure (.refl sound) answered
  | cons id rest ih =>
      intro state sound answered
      simp only [List.foldlM_cons]
      refine .bind (visit_answers collects le sound answered) ?_
      intro marked middle grows answered
      exact (ih marked middle grows.sound answered).imp (fun _ => grows.trans) fun _ _ _ all => all

theorem collectWithin_answers (le : steps ≤ limit) :
    CollectAnswers core limit (collectWithin limit steps) := by
  induction steps with
  | zero => exact fun _ _ _ sound _ => .fail (.refl sound)
  | succ steps ih =>
      exact foldVisits_answers (ih (Nat.le_of_succ_le le)) (Nat.le_of_succ_le le)

/-- The limit lets search from the node: it allows a step, and what is behind the node can be
visited with every branch decided. -/
def Searches (core limit : Nat) (state : ResolverState) (id : SchemaId) : Prop :=
  0 < limit ∧ ∃ visited start, Resolves state id start ∧ Explored state visited start ∧
    AnsweredAll core limit state visited

theorem Searches.later (searches : Searches core limit before id) (grown : before ≤ after) :
    Searches core limit after id := by
  obtain ⟨positive, visited, start, resolves, ⟨inside, explored⟩, answered⟩ := searches
  refine ⟨positive, visited, start, resolves.later grown, ⟨inside, fun branch listed => ?_⟩,
    answered.later grown⟩
  obtain ⟨expanded, path⟩ := explored branch listed
  exact ⟨expanded.later grown,
    Relation.ReflTransGen.mono (fun _ _ step => Branches.later step grown) _ _ path⟩

/-- A search that has come to an end. -/
theorem searches_of_collected {result : Collected} (sound : state.Sound core) (positive : 0 < limit)
    (ran : collectWithin limit limit .empty [id] state = (.ok result, after)) :
    Searches core limit after id := by
  have collects := (collectWithin_meets limit limit .empty [id] state sound .empty).answers _ _ ran
  have answered := (collectWithin_answers (Nat.le_refl limit) .empty [id] state sound
    fun _ inside => (List.not_mem_nil inside).elim).answers _ _ ran
  obtain ⟨start, resolves, explored⟩ := collects.explored
  exact ⟨positive, result.visited, start, resolves, explored, answered⟩

/-- What is remembered of searches was found within the limit. -/
def Remembers (core limit : Nat) (state : ResolverState) : Prop :=
  ∀ id fields, state.foreign.find? id = some fields → Searches core limit state id

theorem Remembers.later (remembers : Remembers core limit before) (grown : before ≤ after)
    (same : after.foreign = before.foreign) : Remembers core limit after :=
  fun id fields known => (remembers id fields (same ▸ known)).later grown

/-- Runs that keep to the limit in what they remember. -/
def keepsSearches (core limit : Nat) : Congruence where
  Related run _ := ∀ state, state.Sound core → Remembers core limit state →
    Grows core state (run state).2 ∧ Remembers core limit (run state).2
  pure _ _ sound remembers := ⟨.refl sound, remembers⟩
  bind {_ _ first _ next _} part rest state sound remembers := by
    have before := part state sound remembers
    cases ran : first state with
    | mk outcome middle =>
        rw [ran] at before
        obtain ⟨grows, kept⟩ := before
        cases outcome with
        | ok answer =>
            rw [bind_ok ran]
            obtain ⟨grows', kept'⟩ := rest answer middle grows.sound kept
            exact ⟨grows.trans grows', kept'⟩
        | error error =>
            rw [bind_error ran]
            exact ⟨grows, kept⟩

theorem keepsSearches_of_stable (stable : Stable core run) (keeps : keepsForeign.Related run run) :
    (keepsSearches core limit).Related run run := by
  intro state sound remembers
  have grows := (stable state sound).leaves
  exact ⟨grows, remembers.later grows.grown (keeps state)⟩

theorem foreignFields_keepsSearches (limit : Nat) (id : SchemaId) :
    (keepsSearches core limit).Related (foreignFields limit id) (foreignFields limit id) := by
  intro state sound remembers
  have grows := (foreignFields_stable limit id state sound).leaves
  refine ⟨grows, ?_⟩
  cases known : state.foreign.find? id with
  | some fields =>
      simp only [foreignFields, bind_ok (read_apply _), known, pure_apply]
      exact remembers
  | none =>
      have same := collectWithin_self keepsForeign_steps limit limit .empty [id] state
      have grown := (collectWithin_stable limit limit .empty [id] state sound).leaves.grown
      simp only [foreignFields, bind_ok (read_apply _), known]
      cases ran : collectWithin limit limit .empty [id] state with
      | mk outcome middle =>
          rw [ran] at same grown
          have kept := remembers.later grown same
          cases outcome with
          | error error =>
              rw [bind_error ran]
              exact kept
          | ok result =>
              rw [bind_ok ran, keepForeign_apply]
              intro other found here
              have later := le_keepForeign middle id result.fields
              rcases Memo.find?_settle_cases here with earlier | ⟨rfl, -, -⟩
              · exact (kept other found earlier).later later
              · have positive : 0 < limit := by
                  cases limit with
                  | zero => cases ran
                  | succ limit => exact Nat.succ_pos _
                exact (searches_of_collected sound positive ran).later later

end Conform.Resolver
