import Conform.Proofs.Distribution.Searching

/-! The foreign fields of a union of combinators.  They are those of the shapes
that a sweep of its members meets. -/

namespace Conform

namespace ForeignFields

/-- What the shapes declare. -/
def gather (shapes : List Shape) : ForeignFields :=
  shapes.foldl absorb empty

variable {fields : ForeignFields}

theorem sorted_absorbs (shapes : List Shape) (sorted : fields.names.Pairwise (· < ·)) :
    (shapes.foldl absorb fields).names.Pairwise (· < ·) := by
  induction shapes generalizing fields with
  | nil => exact sorted
  | cons shape rest ih => exact ih (sorted_absorb sorted)

/-- What each shape adds when it is absorbed, all shapes add. -/
theorem absorbs_iff {has : ForeignFields → Prop} {adds : Shape → Prop}
    (absorbs : ∀ fields shape, has (fields.absorb shape) ↔ has fields ∨ adds shape) (shapes : List Shape) :
    has (shapes.foldl absorb fields) ↔ has fields ∨ ∃ shape ∈ shapes, adds shape := by
  induction shapes generalizing fields with
  | nil => simp
  | cons shape rest ih =>
      rw [List.foldl_cons, ih, absorbs, or_assoc]
      simp only [List.mem_cons, exists_eq_or_imp]

theorem gather_iff (has : ForeignFields → Prop) {adds : Shape → Prop}
    (absorbs : ∀ fields shape, has (fields.absorb shape) ↔ has fields ∨ adds shape)
    (nothing : ¬ has empty) (shapes : List Shape) :
    has (gather shapes) ↔ ∃ shape ∈ shapes, adds shape :=
  (absorbs_iff absorbs shapes).trans (or_iff_right nothing)

end ForeignFields

namespace Distributed

open Run Resolver Agreement

variable {core limit floor : Nat} {before last : ResolverState} {union : SchemaId}
  {members tops visited : List SchemaId} {combinators : List Combinator} {chain : CombinatorChain}
  {fields : ForeignFields} {shapes : List Shape} {error : SchemaError}

/-- Fields that gather what shapes of the same declare. -/
theorem gather_eq (gathers : Gathers last visited fields)
    (same : ∀ shape, shape ∈ shapes ↔ ∃ branch ∈ visited, Declares last branch shape) :
    fields = .gather shapes := by
  have declared (holds : Shape → Prop) : (∃ id ∈ visited, ∃ shape, Declares last id shape ∧ holds shape) ↔
      ∃ shape ∈ shapes, holds shape := by
    constructor
    · rintro ⟨id, inside, shape, declares, here⟩
      exact ⟨shape, (same shape).mpr ⟨id, inside, declares⟩, here⟩
    · rintro ⟨shape, listed, here⟩
      obtain ⟨id, inside, declares⟩ := (same shape).mp listed
      exact ⟨id, inside, shape, declares, here⟩
  have names : fields.names = (ForeignFields.gather shapes).names := by
    refine ForeignFields.eq_of_sorted gathers.sorted (ForeignFields.sorted_absorbs shapes .nil) fun name => ?_
    rw [gathers.names, declared]
    exact (ForeignFields.gather_iff (name ∈ ·.names) (fun _ _ => ForeignFields.mem_absorb)
      (List.not_mem_nil ·) shapes).symm
  have stringKeys : fields.stringKeys = (ForeignFields.gather shapes).stringKeys := by
    rw [Bool.eq_iff_iff, gathers.stringKeys, declared]
    exact (ForeignFields.gather_iff (·.stringKeys = true)
      (fun _ _ => ForeignFields.stringKeys_absorb) nofun shapes).symm
  have numberKeys : fields.numberKeys = (ForeignFields.gather shapes).numberKeys := by
    rw [Bool.eq_iff_iff, gathers.numberKeys, declared]
    exact (ForeignFields.gather_iff (·.numberKeys = true)
      (fun _ _ => ForeignFields.numberKeys_absorb) nofun shapes).symm
  cases fields
  simp_all only

/-- The foreign fields of combinators on members. -/
def fieldsAt (last : ResolverState) (fuel : Nat) (chain : CombinatorChain) (members : List SchemaId) :
    Except SchemaError ForeignFields := do
  let shapes ← sweepAll (sweepAt last fuel chain) members
  return .gather shapes

theorem declared_iff_visited (sound : last.Sound core) (present : union.index < last.arena.size)
    (explored : Explored last visited union) (shape : Shape) :
    Declared last union shape ↔ ∃ branch ∈ visited, Declares last branch shape := by
  constructor
  · rintro ⟨branch, path, declares⟩
    have linked : (World.same last last).Linked core := .same sound sound (le_refl _)
    obtain ⟨other, inside, same, -⟩ := linked.settled.reached ⟨rfl, present⟩ explored path
    cases same
    exact ⟨branch, inside, declares⟩
  · rintro ⟨branch, inside, declares⟩
    exact ⟨branch, (explored.2 branch inside).2, declares⟩

theorem marked_of_explored (explored : Explored last visited union) : Marked core last visited 0 none :=
  ⟨fun id inside _ _ node => .inr (Expanded.member_mem (explored.2 id inside).1 node (.inl rfl)
      (List.mem_cons_self ..)), fun id inside _ _ _ => (explored.2 id inside).1⟩

/-- What a union surveys is what a sweep of its members gathers. -/
theorem fieldsAt_of_surveys (sound : last.Sound core) (surveys : Surveys last union fields)
    (found : last.arena.get? union = some (.union tops))
    (stacked : List.Forall₂ (Stacked core last · combinators ·) members tops)
    (chained : chain.toList = combinators.reverse) :
    Converges (fieldsAt last · chain members) (.ok fields) := by
  obtain ⟨visited, start, resolves, inside, closed, gathers⟩ := surveys
  cases resolves.concrete found trivial
  have explored : Explored last visited union := ⟨inside, closed⟩
  have applied := CombinatorChain.applied chained
  have each : List.Forall₂ (fun member top => ∃ shapes,
      Converges (sweepAt last · chain member) (.ok shapes) ∧
        ∀ shape, shape ∈ shapes ↔ Declared last top shape) members tops := by
    refine imp_of_mem stacked fun member top _ listed stack => ?_
    obtain ⟨_, _, node⟩ := stack.mapped applied
    obtain ⟨resolved, top_inside, resolves'⟩ :=
      Expanded.member_mem (closed union inside).1 found (.inl rfl) listed
    cases resolves'.concrete node trivial
    exact swept sound (marked_of_explored explored) stack chained (Nat.zero_le _) top_inside
  obtain ⟨shapes, sweeps, same⟩ := sweepAll_ok each
  have listed_iff (shape : Shape) : shape ∈ shapes ↔ ∃ branch ∈ visited, Declares last branch shape := by
    rw [same, ← declared_union sound found (tops_concrete stacked applied)]
    exact declared_iff_visited sound (Arena.index_lt_size found) explored shape
  rw [gather_eq gathers listed_iff]
  exact .bind sweeps (.const _)

/-- A union comes before the combinators in it, if it stands for one itself. -/
theorem exists_above (sound : before.Sound core) (found : before.arena.get? union = some (.union tops)) :
    ∃ above, (∀ rank, Ranked before union rank → rank < above) ∧
      ∀ top ∈ tops, above ≤ 2 * top.index + 2 := by
  by_cases ranked : ∃ rank, Ranked before union rank
  · obtain ⟨rank, ranked⟩ := ranked
    refine ⟨rank + 1, fun other ranked' => by rw [ranked'.unique sound ranked]; omega, fun top listed => ?_⟩
    cases ranked with
    | mapped node => cases found.symm.trans node
    | union known =>
        obtain ⟨-, behind⟩ := members_ahead sound known found listed
        omega
  · exact ⟨0, fun rank here => (ranked ⟨rank, here⟩).elim, fun _ _ => Nat.zero_le _⟩

/-- Where foreign fields are not found, the visit of the node itself fails. -/
theorem foreignFields_visits {id : SchemaId}
    (answers : Answers core last (foreignFields limit id) before (.error error)) :
    before.foreign.find? id = none ∧ ∃ fewer, limit = fewer + 1 ∧
      Answers core last (visit limit fewer (collectWithin limit fewer) .empty id) before (.error error) := by
  have unknown : before.foreign.find? id = none := by
    cases known : before.foreign.find? id with
    | none => rfl
    | some fields =>
        have ran : foreignFields limit id before = (.ok fields, before) := by
          simp only [foreignFields, bind_ok (read_apply _), known, pure_apply]
        cases answers.ok_eq ran
  refine ⟨unknown, ?_⟩
  have collects : Answers core last (collectWithin limit limit .empty [id] >>= fun collected =>
      keepForeign id collected.fields) before (.error error) :=
    answers.congr (by simp only [foreignFields, bind_ok (read_apply _), unknown])
  rcases collects.split (collectWithin_stable limit limit .empty [id]) with
    ⟨_, same, fails⟩ | ⟨_, _, -, -, kept⟩
  · cases same
    cases limit with
    | zero => exact (fails.unlimited rfl).elim
    | succ limit =>
        rcases fails.split (visit_stable (collectWithin_stable (limit + 1) limit) (limit + 1) limit .empty
          id) with ⟨_, same, visits⟩ | ⟨_, _, -, -, rest⟩
        · cases same
          exact ⟨limit, rfl, visits⟩
        · cases rest.ok_eq rfl
  · cases kept.ok_eq keepForeign_apply

theorem fieldsAt_fails (found : before.arena.get? union = some (.union tops))
    (stacked : List.Forall₂ (Stacked core before · combinators ·) members tops)
    (chained : chain.toList = combinators.reverse)
    (answers : Answers core last (foreignFields limit union) before (.error error)) :
    Converges (fieldsAt last · chain members) (.error error) := by
  obtain ⟨-, fewer, rfl, visits⟩ := foreignFields_visits answers
  obtain ⟨above, below, ahead⟩ := exists_above answers.sound found
  have unmarked : Marked core before [] 0 none :=
    ⟨fun _ listed => (List.not_mem_nil listed).elim, fun _ listed => (List.not_mem_nil listed).elim⟩
  exact .bind_error (union_fails above (fun fewer _ => visit_fails _ fewer) .empty unmarked found stacked
    chained below (Nat.zero_le _) ahead visits)

/-- The foreign fields depend on the combinators and the members alone. -/
theorem Answers.gathers {answer : Except SchemaError ForeignFields}
    (found : before.arena.get? union = some (.union tops))
    (stacked : List.Forall₂ (Stacked core before · combinators ·) members tops)
    (chained : chain.toList = combinators.reverse)
    (answers : Answers core last (foreignFields limit union) before answer) :
    Converges (fieldsAt last · chain members) answer := by
  rcases answers.outcome (foreignFields_stable limit union) with
    ⟨error, rfl⟩ | ⟨fields, after, ran, grows, ends, rfl⟩
  · exact fieldsAt_fails found stacked chained answers
  · have grown := le_trans grows.grown ends.grown
    have known := (foreignFields_meets limit answers.sound).answers _ _ ran
    exact fieldsAt_of_surveys ends.sound
      (ends.sound.foreign _ _ (ResolverState.foreign_later known ends.grown))
      (ResolverState.get?_later found grown) (stacked.imp fun _ _ stack => stack.later grown) chained

end Distributed

end Conform
