import Conform.Proofs.Distribution.Answers

/-! Answers that come to the same.  Where a cycle is noticed depends on where a search has begun, so two
answers may differ in what they name of one; otherwise they are the same, or one of them is limited. -/

namespace Conform

/-- The error without what tells where a cycle has been noticed. -/
def SchemaError.uncircled : SchemaError → SchemaError
  | .cyclicInheritance _ => .cyclicInheritance Arena.any
  | .referenceCycle _ => .referenceCycle ""
  | error => error

namespace Alias

open Relation Run Resolver Agreement Distributed
open Validator (IsLimited)

variable {core : Nat} {α β γ δ : Type}

/-- Answers that only differ in where a cycle has been noticed, or in related results, unless one of
them is limited. -/
inductive SameFate (related : α → β → Prop) : Except SchemaError α → Except SchemaError β → Prop
  | limited {answer : Except SchemaError α} {other : Except SchemaError β} (limited : IsLimited answer) :
      SameFate related answer other
  | otherLimited {answer : Except SchemaError α} {other : Except SchemaError β} (limited : IsLimited other) :
      SameFate related answer other
  | failed {error otherError : SchemaError} (same : error.uncircled = otherError.uncircled) :
      SameFate related (.error error) (.error otherError)
  | found {answer : α} {other : β} (pair : related answer other) : SameFate related (.ok answer) (.ok other)

namespace SameFate

variable {related wider : α → β → Prop} {goal : γ → δ → Prop} {answer : Except SchemaError α}
  {other : Except SchemaError β} {next : α → Except SchemaError γ} {otherNext : β → Except SchemaError δ}

theorem imp (fate : SameFate related answer other)
    (into : ∀ found otherFound, related found otherFound → wider found otherFound) :
    SameFate wider answer other := by
  cases fate with
  | limited limited => exact .limited limited
  | otherLimited limited => exact .otherLimited limited
  | failed same => exact .failed same
  | found pair => exact .found (into _ _ pair)

theorem bind (fate : SameFate related answer other)
    (rest : ∀ found otherFound, related found otherFound → SameFate goal (next found) (otherNext otherFound)) :
    SameFate goal (answer >>= next) (other >>= otherNext) := by
  cases fate with
  | limited limited =>
      obtain ⟨limit, rfl⟩ := limited
      exact .limited ⟨limit, rfl⟩
  | otherLimited limited =>
      obtain ⟨limit, rfl⟩ := limited
      exact .otherLimited ⟨limit, rfl⟩
  | failed same => exact .failed same
  | found pair => exact rest _ _ pair

theorem of_eq {answer other : Except SchemaError α} (same : answer = other) : SameFate Eq answer other := by
  subst same
  cases answer with
  | error error => exact .failed rfl
  | ok found => exact .found rfl

theorem map_eq {answer other : Except SchemaError α} (fate : SameFate Eq answer other) (makes : α → γ) :
    SameFate Eq (answer.map makes) (other.map makes) := by
  cases fate with
  | limited limited =>
      obtain ⟨limit, rfl⟩ := limited
      exact .limited ⟨limit, rfl⟩
  | otherLimited limited =>
      obtain ⟨limit, rfl⟩ := limited
      exact .otherLimited ⟨limit, rfl⟩
  | failed same => exact .failed same
  | found pair => exact .found (congrArg makes pair)

theorem outcome {answer other : Except SchemaError α} (fate : SameFate Eq answer other) :
    IsLimited answer ∨ IsLimited other ∨
      answer.mapError SchemaError.uncircled = other.mapError SchemaError.uncircled := by
  cases fate with
  | limited limited => exact .inl limited
  | otherLimited limited => exact .inr (.inl limited)
  | failed same => exact .inr (.inr (congrArg Except.error same))
  | found pair => exact .inr (.inr (congrArg Except.ok pair))

/-- Evaluations that have the same fate with every fuel come to values of the same fate. -/
theorem converged {evaluate : Nat → Except SchemaError α} {evaluate' : Nat → Except SchemaError β}
    (fate : ∀ fuel, SameFate related (evaluate (fuel + 1)) (evaluate' (fuel + 1)))
    (converges : Converges evaluate answer) (converges' : Converges evaluate' other) :
    SameFate related answer other := by
  obtain ⟨enough, ends⟩ := converges
  obtain ⟨enough', ends'⟩ := converges'
  have same := fate (max enough enough')
  rwa [ends _ (by omega), ends' _ (by omega)] at same

end SameFate

theorem SameFate.cases {related : α → β → Prop} {answer : Except SchemaError α} {other : Except SchemaError β}
    (fate : SameFate related answer other) (decided : ¬ IsLimited answer) (decided' : ¬ IsLimited other) :
    (∃ error otherError, answer = .error error ∧ other = .error otherError ∧
        error.uncircled = otherError.uncircled) ∨
      ∃ found otherFound, answer = .ok found ∧ other = .ok otherFound ∧ related found otherFound := by
  cases fate with
  | limited limited => exact (decided limited).elim
  | otherLimited limited => exact (decided' limited).elim
  | failed same => exact .inl ⟨_, _, rfl, rfl, same⟩
  | found pair => exact .inr ⟨_, _, rfl, rfl, pair⟩

section

variable {last before otherBefore : ResolverState} {first : Run α} {otherFirst : Run β} {next : α → Run γ}
  {otherNext : β → Run δ} {answer : Except SchemaError γ} {otherAnswer : Except SchemaError δ}

/-- Two sequences whose first parts have the same fate stop with these, or both go on. -/
theorem SameFate.of_split {related : α → β → Prop} {goal : γ → δ → Prop}
    (answers : Answers core last (first >>= next) before answer)
    (answers' : Answers core last (otherFirst >>= otherNext) otherBefore otherAnswer)
    (stable : Stable core first) (stable' : Stable core otherFirst)
    (onward : ∀ found, Stable core (next found)) (onward' : ∀ found, Stable core (otherNext found))
    (part : ∀ result otherResult, Answers core last first before result →
      Answers core last otherFirst otherBefore otherResult → SameFate related result otherResult)
    (rest : ∀ found otherFound middle otherMiddle, related found otherFound →
      first before = (.ok found, middle) → otherFirst otherBefore = (.ok otherFound, otherMiddle) →
      Grows core before middle → Grows core otherBefore otherMiddle →
      Answers core last (next found) middle answer →
      Answers core last (otherNext otherFound) otherMiddle otherAnswer → SameFate goal answer otherAnswer) :
    SameFate goal answer otherAnswer := by
  have parts (result : Except SchemaError α) (result' : Except SchemaError β)
      (fate : Answers core last first before result)
      (fate' : Answers core last otherFirst otherBefore result') :=
    (part _ _ fate fate').cases fate.decided fate'.decided
  rcases answers.split stable with ⟨error, rfl, fails⟩ | ⟨found, middle, ran, grows, ends⟩
  · rcases answers'.split stable' with ⟨error', rfl, fails'⟩ | ⟨found', middle', ran', -, ends'⟩
    · rcases parts _ _ fails fails' with ⟨_, _, ⟨⟩, ⟨⟩, same⟩ | ⟨_, _, ⟨⟩, -⟩
      exact .failed same
    · have done' := Answers.of_ok answers'.sound ran' (ends'.grows (onward' found'))
      rcases parts _ _ fails done' with ⟨_, _, -, ⟨⟩, -⟩ | ⟨_, _, ⟨⟩, -⟩
  · have done := Answers.of_ok answers.sound ran (ends.grows (onward found))
    rcases answers'.split stable' with ⟨error', rfl, fails'⟩ | ⟨found', middle', ran', grows', ends'⟩
    · rcases parts _ _ done fails' with ⟨_, _, ⟨⟩, -⟩ | ⟨_, _, -, ⟨⟩, -⟩
    · have done' := Answers.of_ok answers'.sound ran' (ends'.grows (onward' found'))
      rcases parts _ _ done done' with ⟨_, _, ⟨⟩, -⟩ | ⟨_, _, ⟨⟩, ⟨⟩, pair⟩
      exact rest _ _ _ _ pair ran ran' grows grows' ends ends'

end

/-- What two runs answer before `last` has the same fate, from whatever states they begin in that have
grown from the given ones. -/
def Matches (core : Nat) (start otherStart last : ResolverState) (related : α → β → Prop) (run : Run α)
    (other : Run β) : Prop :=
  ∀ before otherBefore answer otherAnswer, start ≤ before → otherStart ≤ otherBefore →
    Answers core last run before answer → Answers core last other otherBefore otherAnswer →
    SameFate related answer otherAnswer

/-- Runs that keep what is known and have the same fate. -/
def matching (core : Nat) (start otherStart last : ResolverState) : Congruence where
  Related run other := (Stable core run ∧ Stable core other) ∧ Matches core start otherStart last Eq run other
  pure answer := by
    refine ⟨⟨.pure answer, .pure answer⟩, fun before before' _ _ _ _ answers answers' => ?_⟩
    rw [answers.ok_eq rfl, answers'.ok_eq rfl]
    exact .found rfl
  bind part rest := by
    refine ⟨⟨part.1.1.bind fun answer => (rest answer).1.1, part.1.2.bind fun answer => (rest answer).1.2⟩, ?_⟩
    intro before otherBefore answer otherAnswer grown grown' answers answers'
    refine .of_split answers answers' part.1.1 part.1.2 (fun answer => (rest answer).1.1)
      (fun answer => (rest answer).1.2) (fun _ _ => part.2 _ _ _ _ grown grown') ?_
    rintro found _ middle otherMiddle rfl - - grows grows'
    exact (rest found).2 _ _ _ _ (le_trans grown grows.grown) (le_trans grown' grows'.grown)

/-- At most one way on from each node, or an end of the way. -/
structure Course (ν ρ : Type) where
  next : ν → ν → Prop
  ends : ν → ρ → Prop
  next_unique : ∀ {node one other}, next node one → next node other → one = other
  ends_unique : ∀ {node one other}, ends node one → ends node other → one = other
  apart : ∀ {node other result}, next node other → ¬ ends node result

namespace Course

variable {ν ρ : Type} (course : Course ν ρ) {node other : ν} {result again : ρ} {circular : ρ → Prop}

/-- The way has this result at its end. -/
inductive Halts : ν → ρ → Prop
  | here {node : ν} {result : ρ} (ends : course.ends node result) : Halts node result
  | onward {node other : ν} {result : ρ} (step : course.next node other) (rest : Halts other result) :
      Halts node result

/-- The way comes into a circle. -/
def Circles (node : ν) : Prop :=
  ∃ other, ReflTransGen course.next node other ∧ TransGen course.next other other

/-- The result is that of the end of the way, or tells of a circle that the way comes into. -/
def Comes (circular : ρ → Prop) (node : ν) (result : ρ) : Prop :=
  course.Halts node result ∨ circular result ∧ course.Circles node

variable {course}

theorem Halts.onward_iff (step : course.next node other) :
    course.Halts node result ↔ course.Halts other result := by
  constructor
  · intro halts
    cases halts with
    | here ends => exact (course.apart step ends).elim
    | onward step' rest => exact course.next_unique step step' ▸ rest
  · exact .onward step

theorem Circles.onward_iff (step : course.next node other) : course.Circles node ↔ course.Circles other := by
  constructor
  · rintro ⟨met, path, circle⟩
    rcases path.cases_head with rfl | ⟨first, step', path⟩
    · obtain ⟨first, step', back⟩ := TransGen.head'_iff.mp circle
      cases course.next_unique step step'
      exact ⟨node, back, circle⟩
    · cases course.next_unique step step'
      exact ⟨met, path, circle⟩
  · rintro ⟨met, path, circle⟩
    exact ⟨met, .head step path, circle⟩

theorem Halts.unique (halts : course.Halts node result) (halts' : course.Halts node again) :
    result = again := by
  induction halts with
  | here ends =>
      cases halts' with
      | here ends' => exact course.ends_unique ends ends'
      | onward step _ => exact (course.apart step ends).elim
  | onward step _ ih => exact ih ((Halts.onward_iff step).mp halts')

theorem Halts.not_circles (halts : course.Halts node result) : ¬ course.Circles node := by
  induction halts with
  | here ends =>
      rintro ⟨met, path, circle⟩
      rcases path.cases_head with rfl | ⟨_, step, -⟩
      · obtain ⟨_, step, -⟩ := TransGen.head'_iff.mp circle
        exact course.apart step ends
      · exact course.apart step ends
  | onward step _ ih => exact fun circles => ih ((Circles.onward_iff step).mp circles)

theorem Comes.onward_iff (step : course.next node other) :
    course.Comes circular node result ↔ course.Comes circular other result := by
  rw [Comes, Comes, Halts.onward_iff step, Circles.onward_iff step]

theorem Comes.of_ends (comes : course.Comes circular node result) (ends : course.ends node again) :
    result = again := by
  rcases comes with halts | ⟨-, circles⟩
  · exact halts.unique (.here ends)
  · exact ((Halts.here ends).not_circles circles).elim

/-- A way has one end, or comes into a circle. -/
theorem Comes.cases (comes : course.Comes circular node result) (comes' : course.Comes circular node again) :
    result = again ∨ circular result ∧ circular again := by
  rcases comes with halts | ⟨tells, circles⟩ <;> rcases comes' with halts' | ⟨tells', circles'⟩
  · exact .inl (halts.unique halts')
  · exact (halts.not_circles circles').elim
  · exact (halts'.not_circles circles).elim
  · exact .inr ⟨tells, tells'⟩

/-- A way ends where it begins, or goes on. -/
theorem Comes.starts (comes : course.Comes circular node result) :
    course.ends node result ∨ ∃ next, course.next node next ∧ course.Comes circular next result := by
  rcases comes with halts | ⟨tells, met, path, circle⟩
  · cases halts with
    | here ends => exact .inl ends
    | onward step rest => exact .inr ⟨_, step, .inl rest⟩
  · have onward : ∃ next, course.next node next := by
      rcases path.cases_head with rfl | ⟨next, step, -⟩
      · obtain ⟨next, step, -⟩ := TransGen.head'_iff.mp circle
        exact ⟨next, step⟩
      · exact ⟨next, step⟩
    obtain ⟨next, step⟩ := onward
    exact .inr ⟨next, step, (Comes.onward_iff step).mp (.inr ⟨tells, met, path, circle⟩)⟩

/-- A way on from the nodes that stand behind comes into a circle where it meets one of them. -/
theorem Comes.of_step {behind : List ν} (step : course.next node other)
    (leads : ∀ earlier ∈ behind, TransGen course.next earlier node)
    (rest : (∀ earlier ∈ node :: behind, TransGen course.next earlier other) →
      course.Comes circular other result) : course.Comes circular node result := by
  refine (Comes.onward_iff step).mpr (rest fun earlier listed => ?_)
  rcases List.mem_cons.mp listed with rfl | listed
  · exact .single step
  · exact (leads earlier listed).tail step

end Course

end Alias

end Conform
