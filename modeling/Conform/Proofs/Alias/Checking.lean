import Conform.Proofs.Alias.Shapes
import Conform.Proofs.Distribution.Answers
import Conform.Proofs.Validator.Limited

/-! Checks of nodes that resolve to one.  A check that is done before the last state comes to the same in
that state, with as many steps as it takes, and there a chain leads to the check of the node at its end. -/

namespace Conform.Alias

open Run Resolver Agreement Distributed Validator

variable {core levels steps otherSteps : Nat} {before otherBefore start otherStart last : ResolverState}
  {id other target : SchemaId} {options : Options} {value : Value} {fields : ForeignFields}
  {answer otherAnswer : Except SchemaError Outcome}

/-- What the check of a node comes to in a state. -/
def checkedAt (last : ResolverState) (options : Options) (levels : Nat) (value : Value) (id : SchemaId)
    (fuel : Nat) : Except SchemaError Outcome :=
  (checkWithin options (checkLevels options levels) value fuel id last).1

/-- What the check of a member comes to in a state. -/
def memberAt (last : ResolverState) (options : Options) (levels : Nat) (value : Value) (fields : ForeignFields)
    (id : SchemaId) (fuel : Nat) : Except SchemaError Outcome :=
  (checkMemberWithin options (checkLevels options levels) value fuel fields id last).1

/-- More steps do not change the answer, and neither does a state that has grown. -/
theorem converges_of_answers {run : Nat → Run Outcome} (answers : Answers core last (run steps) before answer)
    (stable : Stable core (run steps))
    (wider : ∀ fuel, steps ≤ fuel → Limits options.maxDepth (run steps) (run fuel))
    (concurs : (World.same before last).Linked core → ∀ fuel,
      Concurs core (.same before last) (run fuel) (run fuel)) :
    Converges (fun fuel => (run fuel last).1) answer := by
  have grows := answers.grows stable
  refine ⟨steps, fun fuel above => ?_⟩
  rcases wider fuel above before with limited | same
  · exact (answers.decided ⟨_, answers.ran ▸ limited⟩).elim
  · have ran := answers.ran
    rw [same] at ran
    rcases (concurs (.same answers.sound grows.sound grows.grown) fuel).outcome with ⟨limit, limited⟩ | same
    · exact (answers.decided ⟨limit, ran ▸ limited⟩).elim
    · exact same.symm.trans ran

/-- Each side may check with steps of its own. -/
theorem checks_wider (options : Options) (levels : Nat) (value : Value) {more : Nat} (above : steps ≤ more) :
    (∀ id, Limits options.maxDepth (checkWithin options (checkLevels options levels) value steps id)
        (checkWithin options (checkLevels options levels) value more id)) ∧
      ∀ fields id, Limits options.maxDepth
        (checkMemberWithin options (checkLevels options levels) value steps fields id)
        (checkMemberWithin options (checkLevels options levels) value more fields id) :=
  have parts (part : Value) (id : SchemaId) : Limits options.maxDepth (checkLevels options levels part id)
      (checkLevels options levels part id) := .refl _
  checkWithin_limits (le_refl options.maxDepth) parts above

theorem checks_agree (options : Options) (levels : Nat) (value : Value) (fuel : Nat) :
    MembersPaired (pairing core) (checkWithin options (checkLevels options levels) value fuel)
        (checkWithin options (checkLevels options levels) value fuel) ∧
      ∀ fields, MembersPaired (pairing core)
        (checkMemberWithin options (checkLevels options levels) value fuel fields)
        (checkMemberWithin options (checkLevels options levels) value fuel fields) :=
  within_paired (pairing core) (pairing_resolves core _)
    (checkLevels_paired (pairing core) (pairing_resolves core _) levels) fuel

theorem checkedAt_of_answers (present : id.index < before.arena.size)
    (answers : Answers core last (checkWithin options (checkLevels options levels) value steps id) before answer) :
    Converges (checkedAt last options levels value id) answer :=
  converges_of_answers answers (checkWithin_stable (checkLevels_stable levels) steps id)
    (fun _ above => (checks_wider options levels value above).1 id)
    fun linked fuel => .of_same linked ((checks_agree options levels value fuel).1 ⟨rfl, present⟩)

theorem memberAt_of_answers (present : id.index < before.arena.size)
    (answers : Answers core last (checkMemberWithin options (checkLevels options levels) value steps fields id)
      before answer) : Converges (memberAt last options levels value fields id) answer :=
  converges_of_answers answers (checkMemberWithin_stable (checkLevels_stable levels) steps fields id)
    (fun _ above => (checks_wider options levels value above).2 fields id)
    fun linked fuel => .of_same linked ((checks_agree options levels value fuel).2 fields ⟨rfl, present⟩)

/-- The check of a link leads to that of the node at its end. -/
theorem checkedAt_behind (positive : 0 < options.maxDepth) (resolves : Resolves last id target)
    (converges : Converges (checkedAt last options levels value id) answer) :
    Converges (checkedAt last options levels value target) answer := by
  obtain ⟨node, found⟩ := last.arena.exists_get? id (resolve_present resolves.now)
  by_cases concrete : node.IsConcrete
  · cases resolves.concrete found concrete
    exact converges
  obtain ⟨enough, ends⟩ := converges
  obtain ⟨limit, depth⟩ := Nat.exists_eq_add_one.mpr positive
  have ran : Resolver.resolve options.maxDepth id last = (.ok target, last) := by
    rw [depth]
    exact (resolves.lasts (limit + 1) limit).now
  have follows (fuel : Nat) : checkWithin options (checkLevels options levels) value (fuel + 1) id last =
      checkWithin options (checkLevels options levels) value fuel target last := by
    refine (bind_ok (node_apply found)).trans ?_
    cases node with
    | reference _ | indexedAccess _ _ => exact bind_ok ran
    | _ => exact (concrete trivial).elim
  refine ⟨enough, fun fuel above => ?_⟩
  rw [← ends (fuel + 1) (Nat.le_succ_of_le above), checkedAt, checkedAt, follows]

theorem checkLevels_alike (alike : Alike last id other) (present : id.index < before.arena.size)
    (otherPresent : other.index < otherBefore.arena.size)
    (answers : Answers core last (checkLevels options levels value id) before answer)
    (answers' : Answers core last (checkLevels options levels value other) otherBefore otherAnswer) :
    answer = otherAnswer := by
  cases levels with
  | zero => exact (answers.unlimited rfl).elim
  | succ levels =>
      have converges := checkedAt_of_answers present answers
      have converges' := checkedAt_of_answers otherPresent answers'
      rcases alike with rfl | ⟨target, resolves, resolves'⟩
      · exact converges.unique converges'
      · have positive : 0 < options.maxDepth := by
          cases depth : options.maxDepth with
          | zero =>
              rw [checkLevels, depth] at answers
              exact (answers.unlimited rfl).elim
          | succ limit => exact Nat.succ_pos limit
        exact (checkedAt_behind positive resolves converges).unique
          (checkedAt_behind positive resolves' converges')

theorem checkMember_alike (alike : Alike last id other) (present : id.index < before.arena.size)
    (otherPresent : other.index < otherBefore.arena.size)
    (answers : Answers core last (checkMemberWithin options (checkLevels options levels) value steps fields id)
      before answer)
    (answers' : Answers core last
      (checkMemberWithin options (checkLevels options levels) value otherSteps fields other) otherBefore
      otherAnswer) : answer = otherAnswer := by
  have converges := memberAt_of_answers present answers
  have converges' := memberAt_of_answers otherPresent answers'
  rcases alike with rfl | ⟨target, resolves, resolves'⟩
  · exact converges.unique converges'
  -- Both begin by resolving, in one state and to one node.
  have same (limit : Nat) : Resolver.resolve limit id last = Resolver.resolve limit other last := by
    cases limit with
    | zero => rfl
    | succ limit =>
        exact (resolves.lasts (limit + 1) limit).now.trans (resolves'.lasts (limit + 1) limit).now.symm
  obtain ⟨enough, ends⟩ := converges
  obtain ⟨enough', ends'⟩ := converges'
  have one := ends (enough + enough' + 1) (by omega)
  have two := ends' (enough + enough' + 1) (by omega)
  have runs : memberAt last options levels value fields id (enough + enough' + 1) =
      memberAt last options levels value fields other (enough + enough' + 1) :=
    congrArg Prod.fst (bind_congr_first (same options.maxDepth))
  exact one.symm.trans (runs.trans two)

/-- Nodes that resolve alike, each of which is there where its run starts. -/
def Given (start otherStart last : ResolverState) (id other : SchemaId) : Prop :=
  Alike last id other ∧ id.index < start.arena.size ∧ other.index < otherStart.arena.size

theorem parts_alike (options : Options) (levels : Nat) (values : List Value) :
    PartsAcross (matching core start otherStart last) values (Given start otherStart last)
      (checkLevels options levels) (checkLevels options levels) := by
  rintro part - id other ⟨alike, present, otherPresent⟩
  refine ⟨⟨checkLevels_stable levels part id, checkLevels_stable levels part other⟩, ?_⟩
  intro before otherBefore answer otherAnswer grown grown' answers answers'
  exact .of_eq (checkLevels_alike alike (Nat.lt_of_lt_of_le present (ResolverState.size_mono grown))
    (Nat.lt_of_lt_of_le otherPresent (ResolverState.size_mono grown')) answers answers')

theorem members_alike (options : Options) (levels steps otherSteps : Nat) (value : Value)
    (fields : ForeignFields) (given : Given start otherStart last id other) :
    (matching core start otherStart last).Related
      (checkMemberWithin options (checkLevels options levels) value steps fields id)
      (checkMemberWithin options (checkLevels options levels) value otherSteps fields other) := by
  obtain ⟨alike, present, otherPresent⟩ := given
  have stable (steps : Nat) (id : SchemaId) : Stable core
      (checkMemberWithin options (checkLevels options levels) value steps fields id) :=
    checkMemberWithin_stable (checkLevels_stable levels) steps fields id
  refine ⟨⟨stable steps id, stable otherSteps other⟩, ?_⟩
  intro before otherBefore answer otherAnswer grown grown' answers answers'
  exact .of_eq (checkMember_alike alike (Nat.lt_of_lt_of_le present (ResolverState.size_mono grown))
    (Nat.lt_of_lt_of_le otherPresent (ResolverState.size_mono grown')) answers answers')

end Conform.Alias
