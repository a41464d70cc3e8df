import Conform.Proofs.Formula.Acceptance
import Conform.Proofs.Validator.Levels

/-! No entry goes unchecked.  A branch of an intersection excuses the keys that other
branches account for; but the foreign fields are no more than what the branches
declare, so every key of an object that is accepted has been checked by some branch. -/

namespace Conform

namespace Formula

/-- Nested intersections, without unions. -/
inductive Conjunctive : Formula → Prop
  | leaf (id : SchemaId) : Conjunctive (.leaf id)
  | all {parts : List Formula} (each : ∀ part ∈ parts, Conjunctive part) : Conjunctive (.all parts)

theorem Conjunctive.leaves_accept {formula : Formula} {accepts : SchemaId → Bool}
    (conjunctive : formula.Conjunctive) (holds : formula.eval accepts = true) :
    ∀ leaf ∈ formula.leaves, accepts leaf = true := by
  induction conjunctive with
  | leaf id => simpa using holds
  | all each ih =>
      intro leaf listed
      rw [leaves_all, List.mem_flatMap] at listed
      obtain ⟨part, inside, listed⟩ := listed
      rw [eval_all, List.all_eq_true] at holds
      exact ih part inside (holds part inside) leaf listed

end Formula

namespace Validator

open Run Resolver Agreement

variable {core steps : Nat} {state : ResolverState} {options : Options} {validator : Validator}
  {value part : Value} {object : Object} {key : String} {id target leaf : SchemaId}
  {checkPart : Value → SchemaId → Run Outcome} {next : Run Outcome} {fields : ForeignFields}
  {tolerated : Option ForeignFields} {shape : Shape} {formula : Formula}

/-- The value of a property is accepted, or may be left out. -/
def Passes (options : Options) (checkPart : Value → SchemaId → Run Outcome) (object : Object)
    (state : ResolverState) (property : Property) : Prop :=
  match presentValue options object property with
  | some part => Yields (checkPart part property.type) state .success
  | none => property.optional = true

/-- The value of a property is refused, or is missing though it may not be left out. -/
def Refuses (options : Options) (checkPart : Value → SchemaId → Run Outcome) (object : Object)
    (state : ResolverState) (property : Property) : Prop :=
  match presentValue options object property with
  | some part => ∃ failure, Yields (checkPart part property.type) state (.failure failure)
  | none => property.optional = false

section

variable (parts : ∀ part id, Stable core (checkPart part id)) (sound : state.Sound core)

include parts sound

/-- Either some property is to blame, or all pass and what follows them decides. -/
theorem checkProperties_yields {properties : List Property} {outcome : Outcome}
    (rest : Stable core next)
    (yields : Yields (checkProperties checkPart options object next properties) state outcome) :
    (outcome ≠ .success ∧ ∃ property ∈ properties, Refuses options checkPart object state property) ∨
      (∀ property ∈ properties, Passes options checkPart object state property) ∧
        Yields next state outcome := by
  induction properties with
  | nil => exact .inr ⟨by simp, yields⟩
  | cons first properties ih =>
      rw [List.exists_mem_cons_iff, List.forall_mem_cons]
      simp only [checkProperties] at yields
      cases present : presentValue options object first with
      | some part =>
          rw [present] at yields
          rcases checkThen_yields parts sound (checkProperties_stable parts rest _) yields with
            ⟨rejected, refused⟩ | ⟨here, onward⟩
          · exact .inl ⟨rejected, .inl (by simpa only [Refuses, present] using refused)⟩
          · have passes : Passes options checkPart object state first := by
              simpa only [Passes, present] using here
            exact (ih onward).imp (And.imp_right .inr) (And.imp_left (.intro passes))
      | none =>
          rw [present] at yields
          by_cases optional : first.optional = true
          · have passes : Passes options checkPart object state first := by
              simpa only [Passes, present] using optional
            simp only [optional, if_true] at yields
            exact (ih yields).imp (And.imp_right .inr) (And.imp_left (.intro passes))
          · simp only [optional] at yields
            cases yields
            exact .inl ⟨by simp, .inl (by simpa only [Refuses, present, Bool.not_eq_true] using optional)⟩

/-- An accepted object, rule by rule. -/
theorem checkShape_accepted
    (accepted : Yields (checkShape checkPart options object shape tolerated) state .success) :
    checkNumberKeys shape.index object.keys = .success ∧
      (∀ property ∈ shape.properties, Passes options checkPart object state property) ∧
      Yields (checkRemaining checkPart object shape tolerated) state .success := by
  have remaining : Stable core (checkRemaining checkPart object shape tolerated) :=
    checkRemaining_stable parts shape tolerated
  simp only [checkShape] at accepted
  split at accepted
  next numeric =>
    rcases checkProperties_yields parts sound remaining accepted with ⟨rejected, -⟩ | passed
    · exact (rejected rfl).elim
    · exact ⟨numeric, passed⟩
  next failed => exact (failed (by simpa [Yields] using accepted)).elim

end

/-- What a shape has under a key, and whether it may be left out: a declared property, or else
the index signature. -/
inductive Offers (base : Shape) (key : String) : Bool → SchemaId → Prop
  | declared {property : Property} (found : base.property? key = some property) :
      Offers base key property.optional property.type
  | signed {signature : IndexSignature} (undeclared : base.property? key = none)
      (signed : base.index = some signature) : Offers base key false signature.type

theorem Offers.type_mem {type : SchemaId} {optional : Bool} (offers : Offers shape key optional type) :
    type ∈ shape.types := by
  cases offers with
  | declared found => exact Shape.type_mem_of_property? found
  | signed _ signed => exact Shape.type_mem_of_index signed

/-- A shape accounts for an entry: it declares the key, and the value is accepted or
counts as left out; or its index signature accepts the key, and the value. -/
inductive Accounts (options : Options) (accepts : Value → SchemaId → Prop) (shape : Shape)
    (key : String) (part : Value) : Prop
  | checked {property : Property} (declared : shape.property? key = some property)
      (accepted : accepts part property.type)
  | leftOut {property : Property} (declared : shape.property? key = some property)
      (optional : property.optional = true)
      (absent : part = .undefined ∨ part = .null ∧ options.strictNullChecks = false)
  | signed {signature : IndexSignature} (undeclared : shape.declares key = false)
      (signed : shape.index = some signature) (covered : signature.accepts key = true)
      (accepted : accepts part signature.type)

theorem isAbsent_cases {optional : Bool} (absent : isAbsent options optional part = true) :
    part = .undefined ∨ part = .null ∧ options.strictNullChecks = false := by
  cases part with
  | undefined => exact .inl rfl
  | null => exact .inr ⟨rfl, by simpa using (Bool.and_eq_true_iff.mp absent).2⟩
  | _ => cases absent

/-- A key that the shape declares has been checked against its property. -/
theorem accounts_of_declared (own : object.get? key = some part) (declares : shape.declares key = true)
    (passes : ∀ property ∈ shape.properties, Passes options checkPart object state property) :
    Accounts options (fun part id => Yields (checkPart part id) state .success) shape key part := by
  obtain ⟨property, declared⟩ := Option.isSome_iff_exists.mp declares
  have name := Shape.name_of_findProperty declared
  have passed := passes property (Shape.mem_of_findProperty declared)
  simp only [Passes, presentValue, name, own, Option.filter] at passed
  by_cases absent : isAbsent options property.optional part = true
  · simp only [absent] at passed
    exact .leftOut declared passed (isAbsent_cases absent)
  · simp only [absent] at passed
    exact .checked declared passed

/-- An interface or combinator that is accepted as a branch. -/
def BranchAccepted (options : Options) (checkPart : Value → SchemaId → Run Outcome) (object : Object)
    (fields : ForeignFields) (state : ResolverState) (leaf : SchemaId) (shape : Shape) : Prop :=
  Declares state leaf shape ∧
    Yields (checkShape checkPart options object shape (some fields)) state .success

section

variable (parts : ∀ part id, Stable core (checkPart part id)) (sound : state.Sound core)

include parts sound

theorem branch_accepted {node : Node} (found : state.arena.get? leaf = some node)
    (like : node.isInterfaceLike = true) (undistributed : state.distributions.find? leaf = none)
    (accepted : Yields (checkMemberWithin options checkPart (.object object) steps fields leaf) state
      .success) :
    ∃ shape, BranchAccepted options checkPart object fields state leaf shape := by
  obtain ⟨fewer, target, node', -, resolves, found', examines⟩ :=
    checkMemberWithin_yields parts sound accepted
  cases resolves.concrete found (Node.concrete_of_like like)
  cases found.symm.trans found'
  cases node with
  | interface _ _ _ | mapped _ _ =>
      rcases examines with ⟨union, known, -⟩ | checked
      · cases undistributed.symm.trans known
      · exact checked
  | _ => cases like

/-- A key that no branch declares is checked against the index signature. -/
theorem accounts_of_signature {signature : IndexSignature} (own : object.get? key = some part)
    (undeclared : shape.declares key = false) (foreign : fields.contains key = false)
    (signed : shape.index = some signature)
    (accepted : BranchAccepted options checkPart object fields state leaf shape) :
    Accounts options (fun part id => Yields (checkPart part id) state .success) shape key part := by
  obtain ⟨numeric, -, remaining⟩ := checkShape_accepted parts sound accepted.2
  have entry := object.mem_of_get? own
  simp only [checkRemaining, signed] at remaining
  apply Accounts.signed undeclared signed
  · exact checkNumberKeys_success.mp numeric signature signed key (List.mem_map_of_mem entry)
  · exact checkEntries_accepted parts sound entry (by simp [undeclared, foreign]) remaining

theorem permitted_of_unsigned (own : object.get? key = some part)
    (undeclared : shape.declares key = false) (unsigned : shape.index = none)
    (accepted : BranchAccepted options checkPart object fields state leaf shape) :
    fields.permits key = true := by
  obtain ⟨-, -, remaining⟩ := checkShape_accepted parts sound accepted.2
  simp only [checkRemaining, unsigned] at remaining
  have excess : checkExcess (fun key => shape.declares key || fields.permits key) object.keys =
      .success := by simpa [Yields] using remaining
  have listed : key ∈ object.keys := List.mem_map_of_mem (object.mem_of_get? own)
  simpa [undeclared] using checkExcess_success.mp excess key listed

omit parts in
/-- Whatever branch of the intersection declares fields is one of its leaves. -/
theorem branch_of_declares {branch : SchemaId} (tree : Tree state id formula)
    (resolves : Resolves state id target)
    (accepted : ∀ leaf ∈ formula.leaves,
      ∃ shape, BranchAccepted options checkPart object fields state leaf shape)
    (path : Relation.ReflTransGen (Branches state) target branch) (declares : Declares state branch shape) :
    branch ∈ formula.leaves ∧ BranchAccepted options checkPart object fields state branch shape := by
  obtain ⟨leaf, listed, onward⟩ := tree.through_leaf sound resolves path declares
  obtain ⟨other, here⟩ := accepted leaf listed
  cases Declares.ends here.1 sound onward
  cases here.1.shape.symm.trans declares.shape
  exact ⟨listed, here⟩

/-- Some branch accounts for every entry.  If none declares the key, one of them has an
index signature, since nothing else puts a flag on the foreign fields. -/
theorem some_branch_accounts (tree : Tree state id formula) (resolves : Resolves state id target)
    (known : state.foreign.find? target = some fields) (inhabited : formula.leaves ≠ [])
    (own : object.get? key = some part)
    (accepted : ∀ leaf ∈ formula.leaves,
      ∃ shape, BranchAccepted options checkPart object fields state leaf shape) :
    ∃ leaf ∈ formula.leaves, ∃ shape, Declares state leaf shape ∧
      Accounts options (fun part id => Yields (checkPart part id) state .success) shape key part := by
  obtain ⟨visited, start, resolves', -, explored, gathers⟩ := sound.foreign target fields known
  cases Lasts.unique resolves' (resolves.again sound)
  have branches {branch : SchemaId} {shape : Shape} (inside : branch ∈ visited)
      (declares : Declares state branch shape) : branch ∈ formula.leaves ∧
        BranchAccepted options checkPart object fields state branch shape :=
    branch_of_declares sound tree resolves accepted (explored branch inside).2 declares
  by_cases declared : ∃ leaf ∈ formula.leaves, ∃ shape,
      BranchAccepted options checkPart object fields state leaf shape ∧ shape.declares key = true
  · obtain ⟨leaf, listed, shape, here, declares⟩ := declared
    obtain ⟨-, passes, -⟩ := checkShape_accepted parts sound here.2
    exact ⟨leaf, listed, shape, here.1, accounts_of_declared own declares passes⟩
  have undeclared {leaf : SchemaId} {shape : Shape} (listed : leaf ∈ formula.leaves)
      (here : BranchAccepted options checkPart object fields state leaf shape) :
      shape.declares key = false := by
    rw [← Bool.not_eq_true]
    exact fun declares => declared ⟨leaf, listed, shape, here, declares⟩
  have hidden {branch : SchemaId} {shape : Shape} (inside : branch ∈ visited)
      (declares : Declares state branch shape) : shape.declares key = false :=
    undeclared (branches inside declares).1 (branches inside declares).2
  have foreign : fields.contains key = false := by
    rw [← Bool.not_eq_true, gathers.contains_iff]
    rintro ⟨branch, inside, shape, declares, named⟩
    cases named.symm.trans (hidden inside declares)
  have signed {leaf : SchemaId} {shape : Shape} {signature : IndexSignature}
      (listed : leaf ∈ formula.leaves)
      (here : BranchAccepted options checkPart object fields state leaf shape)
      (index : shape.index = some signature) :
      Accounts options (fun part id => Yields (checkPart part id) state .success) shape key part :=
    accounts_of_signature parts sound own (undeclared listed here) foreign index here
  obtain ⟨leaf, listed⟩ := List.exists_mem_of_ne_nil _ inhabited
  obtain ⟨shape, here⟩ := accepted leaf listed
  cases index : shape.index with
  | some signature => exact ⟨leaf, listed, shape, here.1, signed listed here index⟩
  | none =>
      have permits := permitted_of_unsigned parts sound own (undeclared listed here) index here
      obtain ⟨branch, inside, other, declares, named | ⟨signature, index', -⟩⟩ :=
        (gathers.permits_iff key).mp permits
      · cases named.symm.trans (hidden inside declares)
      · obtain ⟨listed', here'⟩ := branches inside declares
        exact ⟨branch, listed', other, declares, signed listed' here' index'⟩

end

/-- Only what the shape offers under the key is judged. -/
theorem Accounts.imp {accepts others : Value → SchemaId → Prop}
    (accounts : Accounts options accepts shape key part)
    (into : ∀ optional type, Offers shape key optional type → accepts part type → others part type) :
    Accounts options others shape key part := by
  cases accounts with
  | checked declared accepted => exact .checked declared (into _ _ (.declared declared) accepted)
  | leftOut declared optional absent => exact .leftOut declared optional absent
  | signed undeclared signed covered accepted =>
      have missing : shape.property? key = none := by simpa [Shape.declares] using undeclared
      exact .signed undeclared signed covered (into _ _ (.signed missing signed) accepted)

/-- A schema without a union that stands for it never gets one. -/
theorem undistributed_later {left right after : ResolverState} {limit : Nat}
    (sound : left.Sound core) (sound' : right.Sound core) (grown : left ≤ right)
    (present : leaf.index < left.arena.size)
    (answered : Resolver.distribute limit leaf left = (.ok none, after)) :
    right.distributions.find? leaf = none := by
  cases known : right.distributions.find? leaf with
  | none => rfl
  | some union =>
      obtain ⟨kept, last, ran, same⟩ := distribute_later sound sound' grown present answered
      cases (distributeWithin_known known limit limit).now.symm.trans ran
      cases same

/-- What the check of an object finds in a field is found by a check of its own. -/
theorem check_part {outcome : Outcome} {type : SchemaId} (own : object.get? key = some part)
    (yields : Yields (checkLevels options (Value.object object).height part type) state outcome) :
    Yields (check options part type) state outcome := by
  have lower : part.height < (Value.object object).height :=
    Value.height_part (List.mem_map_of_mem (object.mem_of_get? own))
  rwa [checkLevels_eq_check lower] at yields

/-- An interface or combinator that no union stands for. -/
structure DeclaresFields (validator : Validator) (id : SchemaId) : Prop where
  like : ∃ node, validator.state.arena.get? id = some node ∧ node.isInterfaceLike = true
  undistributed : (validator.distribute id).1 = .ok none

/-- Neither the shape of a branch nor what it has for an entry takes the validator to the
recursion limit. -/
structure WithinLimit (judge : Validator) (leaf : SchemaId) (key : String) (part : Value) : Prop where
  flattens : ¬ IsLimited (judge.flatten leaf).1
  checks : ∀ shape optional type, (judge.flatten leaf).1 = .ok shape → Offers shape key optional type →
    ¬ IsLimited (judge.validateById part type).1

/-- Every entry of an object that an intersection accepts is accounted for by one of its
leaves.  Any validator that the call has led to can tell.  One that has not been through the call,
such as the validator that is called, can tell as well where no leaf takes it to the recursion
limit. -/
theorem intersection_checks_every_entry {registry : Registry} {reader judge : Validator}
    {branches : List Formula} (reachable : Reachable registry options validator)
    (readable : Reachable registry options reader) (reads : reader.Reads id (.all branches))
    (conjunctive : (Formula.all branches).Conjunctive)
    (inhabited : (Formula.all branches).leaves ≠ [])
    (declaring : ∀ leaf ∈ (Formula.all branches).leaves, reader.DeclaresFields leaf)
    (accepted : (validator.validateById (.object object) id).1 = .ok .success)
    (tells : (validator.validateById (.object object) id).2.Leads judge ∨
      validator.Leads judge ∧ ∀ leaf ∈ (Formula.all branches).leaves, judge.WithinLimit leaf key part)
    (follows : reader.Leads judge) (own : object.get? key = some part) :
    ∃ leaf ∈ (Formula.all branches).leaves, ∃ shape, (judge.flatten leaf).1 = .ok shape ∧
      Accounts options (fun value id => (judge.validateById value id).1 = .ok .success) shape key part := by
  obtain ⟨leads, state, replays⟩ := reachable.replays accepted tells
  have judging := reachable.leads leads
  have advances := follows.advances readable.sound
  have grown : reader.state ≤ state := le_trans advances.grown replays.grown
  have sound := replays.sound
  have parts (part : Value) (id : SchemaId) : Stable (coreSize registry)
      (checkLevels options (Value.object object).height part id) :=
    checkLevels_stable _ part id
  have tree := reads.tree_of_yields parts trivial (.same readable.sound sound grown) rfl
    ⟨rfl, reads.present⟩ replays.yields
  obtain ⟨target, fields, resolves, known, holds⟩ := tree_outcome parts sound tree trivial replays.yields
  have each : ∀ leaf ∈ (Formula.all branches).leaves, ∃ shape, BranchAccepted options
      (checkLevels options (Value.object object).height) object fields state leaf shape := by
    intro leaf listed
    have accepting := conjunctive.leaves_accept (holds.mp rfl) leaf listed
    simp only [accepts, decide_eq_true_eq] at accepting
    obtain ⟨steps, here⟩ := accepting
    obtain ⟨⟨node, found, like⟩, undistributed⟩ := declaring leaf listed
    apply branch_accepted parts sound (ResolverState.get?_later found grown) like _ here
    exact undistributed_later readable.sound sound grown (Arena.index_lt_size found)
      (Prod.ext undistributed rfl)
  obtain ⟨leaf, listed, shape, declares, accounts⟩ :=
    some_branch_accounts parts sound tree resolves known inhabited own each
  obtain ⟨node, found, -⟩ := (declaring leaf listed).like
  have flattens : (judge.flatten leaf).1 = .ok shape := by
    rw [replays.flattens judging (advances.issued (Arena.index_lt_size found))
      fun unlimited => (unlimited leaf listed).flattens]
    exact congrArg Prod.fst (flattenWithin_known declares.shape _ _ []).now
  refine ⟨leaf, listed, shape, flattens, accounts.imp fun optional type offers here => ?_⟩
  rw [replays.answer judging (flattened_issued judging flattens type offers.type_mem)
    fun unlimited => (unlimited leaf listed).checks shape optional type flattens offers]
  exact congrArg Prod.fst (check_part own here)

/-- An interface with a name, one with an index signature, and nested intersections of
the two. -/
def labelled : Validator :=
  let named := ((Validator.ofRegistry .empty { maxDepth := 8 }).intern
    (.interface [⟨0, "name", false, .string⟩] none [])).2
  let keyed := (named.alloc (.interface [] (some ⟨.string, ⟨2⟩⟩) [])).2
  let inner := (keyed.alloc (.intersection [⟨4⟩])).2
  (inner.alloc (.intersection [⟨5⟩, ⟨3⟩])).2

theorem labelled_reachable : Reachable .empty { maxDepth := 8 } labelled := by
  refine Relation.ReflTransGen.refl.tail (.intern _ _) |>.tail
    (.alloc _ (.interface [] (some ⟨.string, ⟨2⟩⟩) []) ?_) |>.tail (.alloc _ (.intersection [⟨4⟩]) ?_)
    |>.tail (.alloc _ (.intersection [⟨5⟩, ⟨3⟩]) ?_) <;> decide

/-- Read before the call and after it. -/
theorem intersection_checks_every_entry_labelled :
    let object : Object := ⟨[("name", .string "a"), ("alias", .string "b")]⟩
    let used := (labelled.validateById (.object object) ⟨6⟩).2
    (labelled.validateById (.object object) ⟨6⟩).1 = .ok .success ∧
      ∀ judge ∈ [labelled, used], ∃ leaf ∈ [(⟨4⟩ : SchemaId), ⟨3⟩], ∃ shape,
        (judge.flatten leaf).1 = .ok shape ∧
          Accounts { maxDepth := 8 } (fun value id => (judge.validateById value id).1 = .ok .success)
            shape "alias" (.string "b") := by
  intro object used
  have accepted : (labelled.validateById (.object object) ⟨6⟩).1 = .ok .success := rfl
  have own : object.get? "alias" = some (.string "b") := rfl
  have opened : labelled.Reads ⟨4⟩ (.leaf ⟨4⟩) := .leaf rfl rfl nofun
  have named : labelled.Reads ⟨3⟩ (.leaf ⟨3⟩) := .leaf rfl rfl nofun
  have nested : labelled.Reads ⟨5⟩ (.all [.leaf ⟨4⟩]) := .intersection rfl rfl (.cons opened .nil)
  have reads : labelled.Reads ⟨6⟩ (.all [.all [.leaf ⟨4⟩], .leaf ⟨3⟩]) :=
    .intersection rfl rfl (.cons nested (.cons named .nil))
  have conjunctive : (Formula.all [.all [.leaf ⟨4⟩], .leaf ⟨3⟩]).Conjunctive := by
    apply Formula.Conjunctive.all
    simp only [List.forall_mem_cons]
    exact ⟨.all (by simp [Formula.Conjunctive.leaf]), .leaf _, by simp⟩
  have declaring : ∀ leaf ∈ [(⟨4⟩ : SchemaId), ⟨3⟩], labelled.DeclaresFields leaf := by
    simp only [List.forall_mem_cons]
    exact ⟨⟨⟨_, rfl, rfl⟩, rfl⟩, ⟨⟨_, rfl, rfl⟩, rfl⟩, by simp⟩
  have within {leaf : SchemaId} {flat : Shape} (flattens : (labelled.flatten leaf).1 = .ok flat)
      (types : flat.types = [⟨2⟩]) : labelled.WithinLimit leaf "alias" (.string "b") := by
    refine ⟨not_isLimited (by rw [flattens]; rfl), fun shape optional type again offers => ?_⟩
    cases flattens.symm.trans again
    have listed := offers.type_mem
    rw [types, List.mem_singleton] at listed
    subst listed
    exact not_isLimited rfl
  have unlimited : ∀ leaf ∈ [(⟨4⟩ : SchemaId), ⟨3⟩], labelled.WithinLimit leaf "alias" (.string "b") := by
    simp only [List.forall_mem_cons]
    exact ⟨within rfl rfl, within rfl rfl, by simp⟩
  have before := intersection_checks_every_entry labelled_reachable labelled_reachable reads
    conjunctive (by simp) declaring accepted (.inr ⟨.refl, unlimited⟩) .refl own
  have after := intersection_checks_every_entry labelled_reachable labelled_reachable reads
    conjunctive (by simp) declaring accepted (.inl .refl)
    (.single (.validateById labelled (.object object) ⟨6⟩)) own
  exact ⟨accepted, List.forall_mem_cons.mpr ⟨before, List.forall_mem_singleton.mpr after⟩⟩

end Validator

end Conform
