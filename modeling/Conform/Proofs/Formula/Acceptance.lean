import Conform.Proofs.Formula.Reading
import Conform.Proofs.Validator.Widening

/-! Acceptance follows the formula.  Every leaf is checked with the foreign fields of
the whole, and these are the fields that can be reached through the leaves; so two
schemas with equivalent formulas tolerate the same fields and accept the same
values. -/

namespace Conform

theorem ForeignFields.Included.antisymm {fields other : ForeignFields}
    (included : fields.Included other) (included' : other.Included fields)
    (sorted : fields.names.Pairwise (· < ·)) (sorted' : other.names.Pairwise (· < ·)) :
    fields = other := by
  have names := ForeignFields.eq_of_sorted sorted sorted'
    fun name => ⟨(included.names ·), (included'.names ·)⟩
  have strings := Bool.eq_iff_iff.mpr ⟨included.stringKeys, included'.stringKeys⟩
  have numbers := Bool.eq_iff_iff.mpr ⟨included.numberKeys, included'.numberKeys⟩
  obtain ⟨_, _, _⟩ := fields
  simp_all only

namespace Validator

open Run Resolver

variable {core steps : Nat} {state : ResolverState} {options : Options} {value : Value}
  {id target : SchemaId} {outcome : Outcome} {checkPart : Value → SchemaId → Run Outcome}
  {checkMember : SchemaId → Run Outcome} {fields : ForeignFields} {formula : Formula}
  {members : List SchemaId} {parts : List Formula} {leafAccepts : SchemaId → Bool}

open Classical in
/-- Whether a member is accepted, with any number of steps. -/
noncomputable def accepts (options : Options) (checkPart : Value → SchemaId → Run Outcome)
    (value : Value) (fields : ForeignFields) (state : ResolverState) (id : SchemaId) : Bool :=
  decide (∃ steps, Yields (checkMemberWithin options checkPart value steps fields id) state .success)

/-- What the members yield is what the parts evaluate to. -/
def Evaluates (checkMember : SchemaId → Run Outcome) (state : ResolverState)
    (leafAccepts : SchemaId → Bool) (id : SchemaId) (formula : Formula) : Prop :=
  ∀ outcome, Yields (checkMember id) state outcome →
    (outcome = .success ↔ formula.eval leafAccepts = true)

theorem checkAny_evaluates {failures : List Failure} (stable : ∀ id, Stable core (checkMember id))
    (sound : state.Sound core)
    (each : List.Forall₂ (Evaluates checkMember state leafAccepts) members parts)
    (yields : Yields (checkAny checkMember failures members) state outcome) :
    outcome = .success ↔ (Formula.any parts).eval leafAccepts = true := by
  rw [Formula.eval_any, List.any_eq_true]
  rcases checkAny_yields stable sound yields with ⟨accepted, member, listed, here⟩ | ⟨rejected, all⟩
  · obtain ⟨part, inside, evaluates⟩ := exists_counterpart each listed
    exact ⟨fun _ => ⟨part, inside, (evaluates _ here).mp rfl⟩, fun _ => accepted⟩
  · refine ⟨fun accepted => (rejected accepted).elim, fun ⟨part, inside, holds⟩ => ?_⟩
    obtain ⟨member, listed, evaluates⟩ := exists_origin each inside
    obtain ⟨failure, failed⟩ := all member listed
    cases (evaluates _ failed).mpr holds

theorem checkAll_evaluates {position : Nat} (stable : ∀ id, Stable core (checkMember id))
    (sound : state.Sound core)
    (each : List.Forall₂ (Evaluates checkMember state leafAccepts) members parts)
    (yields : Yields (checkAll checkMember position members) state outcome) :
    outcome = .success ↔ (Formula.all parts).eval leafAccepts = true := by
  rw [Formula.eval_all, List.all_eq_true]
  rcases checkAll_yields stable sound yields with ⟨accepted, all⟩ | ⟨rejected, member, listed, failure, failed⟩
  · refine ⟨fun _ part inside => ?_, fun _ => accepted⟩
    obtain ⟨member, listed, evaluates⟩ := exists_origin each inside
    exact (evaluates _ (all member listed)).mp rfl
  · refine ⟨fun accepted => (rejected accepted).elim, fun holds => ?_⟩
    obtain ⟨part, inside, evaluates⟩ := exists_counterpart each listed
    cases (evaluates _ failed).mpr (holds part inside)

/-- A member is checked like the schema it resolves to. -/
theorem checkMemberWithin_target (sound : state.Sound core) (resolves : Resolves state id target)
    (yields : Yields (checkMemberWithin options checkPart value steps fields id) state outcome) :
    Yields (checkMemberWithin options checkPart value steps fields target) state outcome := by
  cases steps with
  | zero => cases yields
  | succ steps =>
      obtain ⟨found, middle, ran, rest⟩ := of_bind_ok yields
      have known {id : SchemaId} (resolves : Resolves state id target) :
          Resolver.resolve options.maxDepth id state = (.ok target, state) := by
        cases limit : options.maxDepth with
        | zero =>
            rw [limit] at ran
            cases ran
        | succ fewer => exact (resolves.lasts _ fewer).now
      cases (known resolves).symm.trans ran
      exact (bind_ok (known (resolves.again sound))).trans rest

section

variable (stableParts : ∀ part id, Stable core (checkPart part id)) (sound : state.Sound core)

include stableParts sound

/-- A member is accepted when its formula holds. -/
theorem tree_evaluates (tree : Tree state id formula) :
    Evaluates (checkMemberWithin options checkPart value steps fields) state
      (accepts options checkPart value fields state) id formula := by
  induction formula using Formula.of_parts generalizing id steps with
  | leaf target =>
      intro outcome yields
      cases tree with
      | leaf resolves _ _ =>
          have here := checkMemberWithin_target sound resolves yields
          simp only [Formula.eval_leaf, accepts, decide_eq_true_eq]
          refine ⟨fun accepted => ⟨steps, accepted ▸ here⟩, fun ⟨_, accepted⟩ => ?_⟩
          exact checkMemberWithin_monotone stableParts sound (.refl fields) accepted here
  | compound formula compound ih =>
      intro outcome yields
      obtain ⟨fewer, target, node, rfl, resolves, found, examines⟩ :=
        checkMemberWithin_yields stableParts sound yields
      have each {members : List SchemaId} (trees : List.Forall₂ (Tree state) members formula.parts) :
          List.Forall₂ (Evaluates (checkMemberWithin options checkPart value fewer fields) state
            (accepts options checkPart value fields state)) members formula.parts :=
        forall₂_across (List.forall₂_same.mpr fun _ _ => rfl) trees
          fun _ _ part _ listed same tree => ih part listed (same ▸ tree)
      cases tree with
      | leaf _ _ _ => exact compound.elim
      | union resolves' found' trees =>
          cases Lasts.unique resolves resolves'
          cases found.symm.trans found'
          exact checkAny_evaluates (checkMemberWithin_stable stableParts fewer fields) sound (each trees) examines
      | intersection resolves' found' trees =>
          cases Lasts.unique resolves resolves'
          cases found.symm.trans found'
          exact checkAll_evaluates (checkMemberWithin_stable stableParts fewer fields) sound (each trees) examines

/-- A union or intersection is accepted when its formula holds, with its own
foreign fields for every leaf. -/
theorem tree_outcome (tree : Tree state id formula) (compound : formula.IsCompound)
    (yields : Yields (checkWithin options checkPart value steps id) state outcome) :
    ∃ target fields, Resolves state id target ∧ state.foreign.find? target = some fields ∧
      (outcome = .success ↔
        formula.eval (accepts options checkPart value fields state) = true) := by
  obtain ⟨fewer, target, node, fields, -, resolves, found, known, examines⟩ :=
    checkWithin_examines stableParts sound yields
  have each {members : List SchemaId} {parts : List Formula}
      (trees : List.Forall₂ (Tree state) members parts) :
      List.Forall₂ (Evaluates (checkMemberWithin options checkPart value fewer fields) state
        (accepts options checkPart value fields state)) members parts :=
    trees.imp fun _ _ tree => tree_evaluates stableParts sound tree
  cases tree with
  | leaf _ _ _ => exact compound.elim
  | union resolves' found' trees =>
      cases Lasts.unique resolves resolves'
      cases found.symm.trans found'
      exact ⟨target, fields, resolves, known trivial,
        checkAny_evaluates (checkMemberWithin_stable stableParts fewer fields) sound (each trees) examines⟩
  | intersection resolves' found' trees =>
      cases Lasts.unique resolves resolves'
      cases found.symm.trans found'
      exact ⟨target, fields, resolves, known trivial,
        checkAll_evaluates (checkMemberWithin_stable stableParts fewer fields) sound (each trees) examines⟩

end

section

variable {other otherTarget : SchemaId} {otherFormula : Formula} {otherFields : ForeignFields}

theorem tree_covers (tree : Tree state id formula) (otherTree : Tree state other otherFormula)
    (sound : state.Sound core) (leaves : ∀ leaf ∈ formula.leaves, leaf ∈ otherFormula.leaves)
    (resolves : Resolves state id target) (otherResolves : Resolves state other otherTarget)
    (covers : Covers state otherFields otherTarget) : Covers state otherFields target := by
  refine ⟨fun resolved again branch path shape declares => ?_⟩
  cases Lasts.unique again (resolves.again sound)
  obtain ⟨leaf, listed, onward⟩ := tree.through_leaf sound resolves path declares
  have reached := otherTree.reaches_leaf otherResolves (leaves leaf listed)
  exact covers.declared otherTarget (otherResolves.again sound) branch (reached.trans onward) shape
    declares

theorem surveyed_eq (tree : Tree state id formula) (otherTree : Tree state other otherFormula)
    (sound : state.Sound core) (leaves : ∀ leaf, leaf ∈ formula.leaves ↔ leaf ∈ otherFormula.leaves)
    (resolves : Resolves state id target) (otherResolves : Resolves state other otherTarget)
    (known : state.foreign.find? target = some fields)
    (otherKnown : state.foreign.find? otherTarget = some otherFields) : fields = otherFields := by
  have surveys := sound.foreign target fields known
  have otherSurveys := sound.foreign otherTarget otherFields otherKnown
  have covers := tree_covers tree otherTree sound (fun leaf => (leaves leaf).mp) resolves
    otherResolves (surveys_cover sound otherSurveys)
  have otherCovers := tree_covers otherTree tree sound (fun leaf => (leaves leaf).mpr) otherResolves
    resolves (surveys_cover sound surveys)
  obtain ⟨_, _, _, _, _, gathers⟩ := surveys
  obtain ⟨_, _, _, _, _, otherGathers⟩ := otherSurveys
  exact (covers.included (sound.foreign target fields known)).antisymm
    (otherCovers.included (sound.foreign otherTarget otherFields otherKnown)) gathers.sorted
    otherGathers.sorted

end

theorem isSuccess_iff : outcome.isSuccess = true ↔ outcome = .success := by
  cases outcome <;> simp [Outcome.isSuccess]

/-- Unions and intersections with equivalent formulas, such as rearranged ones, accept
the same values. -/
theorem equivalent_formulas_accept_alike {registry : Registry} {validator later : Validator}
    {other : SchemaId} {otherFormula : Formula} {otherOutcome : Outcome}
    (reachable : Reachable registry options validator) (reads : Reads validator id formula)
    (otherReads : Reads validator other otherFormula) (compound : formula.IsCompound)
    (otherCompound : otherFormula.IsCompound)
    (alike : formula.Equivalent otherFormula ∨ formula.Rearranged otherFormula)
    (leads : validator.Leads later) (answered : (validator.validateById value id).1 = .ok outcome)
    (otherAnswered : (later.validateById value other).1 = .ok otherOutcome) :
    outcome.isSuccess = otherOutcome.isSuccess := by
  have equivalent : formula.Equivalent otherFormula := 
    alike.elim (fun same => same) Formula.Rearranged.equivalent
  obtain ⟨state, grown, sound, yields, otherYields⟩ :=
    yield_together reachable leads answered otherAnswered
  have parts (part : Value) (id : SchemaId) :
      Stable (coreSize registry) (checkLevels options value.height part id) :=
    checkLevels_stable value.height part id
  have beyond := le_trans (leads.advances reachable.sound).grown grown
  have mirrors := Mirrors.same reachable.sound sound beyond
  have tree := reads.tree_of_yields parts compound mirrors rfl ⟨rfl, reads.present⟩ yields
  have otherTree := otherReads.tree_of_yields parts otherCompound mirrors rfl
    ⟨rfl, otherReads.present⟩ otherYields
  obtain ⟨target, fields, resolves, known, holds⟩ := tree_outcome parts sound tree compound yields
  obtain ⟨otherTarget, otherFields, otherResolves, otherKnown, otherHolds⟩ :=
    tree_outcome parts sound otherTree otherCompound otherYields
  cases surveyed_eq tree otherTree sound equivalent.leaves resolves otherResolves known otherKnown
  rw [Bool.eq_iff_iff, isSuccess_iff, isSuccess_iff, holds, otherHolds, equivalent.eval]

/-- The last union among the choices, and a union of one of its members and the
union itself. -/
def regrouped : Validator :=
  (choices.alloc (.union [⟨2⟩, ⟨6⟩])).2

theorem regrouped_reachable : Reachable .empty { maxDepth := 8 } regrouped :=
  choices_reachable.step (.alloc choices (.union [⟨2⟩, ⟨6⟩]) (by decide))

theorem equivalent_formulas_accept_alike_regrouped :
    regrouped.Reads ⟨6⟩ (.any [.leaf ⟨4⟩, .leaf ⟨2⟩]) ∧
      regrouped.Reads ⟨7⟩ (.any [.leaf ⟨2⟩, .any [.leaf ⟨4⟩, .leaf ⟨2⟩]]) ∧
      ∀ value outcome otherOutcome, (regrouped.validateById value ⟨6⟩).1 = .ok outcome →
        (regrouped.validateById value ⟨7⟩).1 = .ok otherOutcome →
        outcome.isSuccess = otherOutcome.isSuccess := by
  have shape : regrouped.Reads ⟨4⟩ (.leaf ⟨4⟩) := .leaf rfl rfl nofun
  have text : regrouped.Reads ⟨2⟩ (.leaf ⟨2⟩) := .leaf rfl rfl nofun
  have plain : regrouped.Reads ⟨6⟩ (.any [.leaf ⟨4⟩, .leaf ⟨2⟩]) :=
    .union rfl rfl (.cons shape (.cons text .nil))
  have nested : regrouped.Reads ⟨7⟩ (.any [.leaf ⟨2⟩, .any [.leaf ⟨4⟩, .leaf ⟨2⟩]]) :=
    .union rfl rfl (.cons text (.cons plain .nil))
  have doubled : Formula.Rearranged (.any [.leaf ⟨4⟩, .leaf ⟨2⟩])
      (.any [.leaf ⟨4⟩, .leaf ⟨2⟩, .leaf ⟨2⟩]) := .anySame (by simp) (by simp)
  have grouped : Formula.Rearranged (.any [.any [.leaf ⟨4⟩, .leaf ⟨2⟩], .leaf ⟨2⟩])
      (.any [.leaf ⟨4⟩, .leaf ⟨2⟩, .leaf ⟨2⟩]) := .anyNested
  have turned : Formula.Rearranged (.any [.any [.leaf ⟨4⟩, .leaf ⟨2⟩], .leaf ⟨2⟩])
      (.any [.leaf ⟨2⟩, .any [.leaf ⟨4⟩, .leaf ⟨2⟩]]) := .anySame (by simp) (by simp)
  have rearranged := doubled.trans (grouped.symm.trans turned)
  refine ⟨plain, nested, fun value outcome otherOutcome answered otherAnswered => ?_⟩
  exact equivalent_formulas_accept_alike regrouped_reachable plain nested trivial trivial
    (.inr rearranged) .refl answered otherAnswered

end Validator

end Conform
