import Conform.Proofs.Validator.Transparency

/-! Answers of runs that end before a given state.  What such a run has found on
the way is known in that state, and a run that fails there fails on as many steps
or more. -/

namespace Conform.Distributed

open Run Resolver Agreement Validator

variable {core : Nat} {α β : Type} {run first : Run α} {next : α → Run β}
  {before middle after last : ResolverState} {found : α} {error : SchemaError}

/-- The run gives the answer before `last`, and it is not that the limit is
exceeded. -/
structure Answers (core : Nat) (last : ResolverState) (run : Run α) (before : ResolverState)
    (answer : Except SchemaError α) : Prop where
  sound : before.Sound core
  ran : (run before).1 = answer
  ends : Grows core (run before).2 last
  decided : ¬ IsLimited answer

namespace Answers

variable {answer : Except SchemaError α} {result : Except SchemaError β}

theorem grows (answers : Answers core last run before answer) (stable : Stable core run) :
    Grows core before last :=
  (stable before answers.sound).leaves.trans answers.ends

theorem unlimited (answers : Answers core last run before answer) {limit : Nat} :
    run before ≠ (.error (.depthLimitExceeded limit), after) := by
  intro ran
  exact answers.decided ⟨limit, by rw [← answers.ran, ran]⟩

theorem congr {other : Run α} (answers : Answers core last run before answer)
    (same : run before = other before) : Answers core last other before answer :=
  ⟨answers.sound, same ▸ answers.ran, same ▸ answers.ends, answers.decided⟩

theorem ok_eq (answers : Answers core last run before answer) (ran : run before = (.ok found, middle)) :
    answer = .ok found := by
  rw [← answers.ran, ran]

theorem error_eq (answers : Answers core last run before answer)
    (ran : run before = (.error error, middle)) : answer = .error error := by
  rw [← answers.ran, ran]

/-- The rest of a sequence whose first part is done. -/
theorem onward (answers : Answers core last (first >>= next) before result)
    (ran : first before = (.ok found, middle)) (sound : middle.Sound core) :
    Answers core last (next found) middle result := by
  have same : (first >>= next) before = next found middle := bind_ok ran
  exact ⟨sound, same ▸ answers.ran, same ▸ answers.ends, answers.decided⟩

theorem node {id : SchemaId} {node : Node} {next : Node → Run β}
    (answers : Answers core last (Run.node id >>= next) before result)
    (found : before.arena.get? id = some node) : Answers core last (next node) before result :=
  answers.onward (node_apply found) answers.sound

theorem of_ok (sound : before.Sound core) (ran : run before = (.ok found, middle))
    (grows : Grows core middle last) : Answers core last run before (.ok found) :=
  ⟨sound, by rw [ran], by rw [ran]; exact grows, nofun⟩

/-- A sequence fails in its first part, or its first part is done. -/
theorem split (answers : Answers core last (first >>= next) before result) (part : Stable core first) :
    (∃ error, result = .error error ∧ Answers core last first before (.error error)) ∨
      ∃ found middle, first before = (.ok found, middle) ∧ Grows core before middle ∧
        Answers core last (next found) middle result := by
  cases ran : first before with
  | mk outcome middle =>
      have grows : Grows core before middle := by
        simpa only [ran] using (part before answers.sound).leaves
      cases outcome with
      | ok found => exact .inr ⟨found, middle, rfl, grows, answers.onward ran grows.sound⟩
      | error error =>
          have failed : (first >>= next) before = (.error error, middle) := bind_error ran
          have same := answers.error_eq failed
          subst same
          refine .inl ⟨error, rfl, answers.sound, by rw [ran], ?_, ?_⟩
          · simpa only [ran, failed] using answers.ends
          · rintro ⟨limit, limited⟩
            cases limited
            exact answers.decided ⟨limit, rfl⟩

/-- The run fails, or what it finds is found before the last state. -/
theorem outcome (answers : Answers core last run before answer) (stable : Stable core run) :
    (∃ error, answer = .error error) ∨ ∃ found after, run before = (.ok found, after) ∧
      Grows core before after ∧ Grows core after last ∧ answer = .ok found := by
  cases ran : run before with
  | mk outcome after =>
      have grows : Grows core before after := by
        simpa only [ran] using (stable before answers.sound).leaves
      have ends : Grows core after last := by simpa only [ran] using answers.ends
      cases outcome with
      | error error => exact .inl ⟨error, answers.error_eq ran⟩
      | ok found => exact .inr ⟨found, after, rfl, grows, ends, answers.ok_eq ran⟩

/-- Where the run fails, another run fails in the last state that agrees with it
unless it has fewer steps. -/
theorem fails {other : Run β} {post : α → β → World → Prop}
    (answers : Answers core last run before (.error error))
    (agrees : Agrees core False (.same before last) run other post) :
    (other last).1 = .error error := by
  have ran : run before = (.error error, (run before).2) := Prod.ext answers.ran rfl
  exact agrees.of_left_error id ran fun limit limited => answers.decided ⟨limit, limited ▸ rfl⟩

end Answers

/-- From some fuel on, the evaluation gives the value. -/
def Converges (evaluate : Nat → α) (value : α) : Prop :=
  ∃ enough, ∀ fuel, enough ≤ fuel → evaluate fuel = value

namespace Converges

variable {evaluate : Nat → α} {value again : α}

theorem unique (converges : Converges evaluate value) (converges' : Converges evaluate again) :
    value = again := by
  obtain ⟨enough, ends⟩ := converges
  obtain ⟨enough', ends'⟩ := converges'
  rw [← ends (max enough enough') (Nat.le_max_left ..), ends' _ (Nat.le_max_right ..)]

theorem const (value : α) : Converges (fun _ => value) value :=
  ⟨0, fun _ _ => rfl⟩

theorem of_succ (converges : Converges (fun fuel => evaluate (fuel + 1)) value) :
    Converges evaluate value := by
  obtain ⟨enough, ends⟩ := converges
  refine ⟨enough + 1, fun fuel above => ?_⟩
  obtain ⟨fewer, rfl⟩ := Nat.exists_eq_add_of_le' above
  exact ends (fewer + enough) (Nat.le_add_left ..)

section

variable {first : Nat → Except SchemaError α} {next : Nat → α → Except SchemaError β}
  {result : Except SchemaError β}

theorem bind (part : Converges first (.ok found))
    (rest : Converges (fun fuel => next fuel found) result) :
    Converges (fun fuel => first fuel >>= next fuel) result := by
  obtain ⟨enough, ends⟩ := part
  obtain ⟨enough', ends'⟩ := rest
  refine ⟨max enough enough', fun fuel above => ?_⟩
  dsimp only
  rw [ends fuel (Nat.le_trans (Nat.le_max_left ..) above)]
  exact ends' fuel (Nat.le_trans (Nat.le_max_right ..) above)

theorem bind_error (part : Converges first (.error error)) :
    Converges (fun fuel => first fuel >>= next fuel) (.error error) := by
  obtain ⟨enough, ends⟩ := part
  refine ⟨enough, fun fuel above => ?_⟩
  dsimp only
  rw [ends fuel above]
  rfl

end

end Converges

/-- A sequence comes to what its parts come to. -/
theorem Answers.sequence {result : Except SchemaError β} {evaluate : Nat → Except SchemaError α}
    {rest : Nat → α → Except SchemaError β}
    (answers : Answers core last (first >>= next) before result) (part : Stable core first)
    (stable : ∀ found, Stable core (next found))
    (begins : ∀ answer, Answers core last first before answer → Converges evaluate answer)
    (goesOn : ∀ found middle, first before = (.ok found, middle) → Grows core before middle →
      Answers core last (next found) middle result → Converges (rest · found) result) :
    Converges (fun fuel => evaluate fuel >>= rest fuel) result := by
  rcases answers.split part with ⟨error, same, fails⟩ | ⟨found, middle, ran, grows, onward⟩
  · rw [same]
    exact .bind_error (begins _ fails)
  · have ends := onward.grows (stable found)
    exact .bind (begins _ (.of_ok answers.sound ran ends)) (goesOn found middle ran grows onward)

end Conform.Distributed
