import Conform.Proofs.Agreement.Flattening

/-! Resolution and flattening agree, by induction on the steps that the left run has left.  A shape
that is known on both sides is settled; where only the right state knows it, the left run computes
it from the shapes that it was computed from there. -/

namespace Conform.Agreement

open Run Resolver

variable {core bound : Nat} {excuse : Prop} {world next : World} {state : ResolverState}
  {id other : SchemaId} {shape otherShape : Shape} {entries older otherEntries : List (SchemaId × Shape)}
  {chain otherChain : List SchemaId}

theorem recallShape_some (known : entries.lookup id = some shape) :
    recallShape entries id = (pure shape : Run Shape) := by
  simp only [recallShape, known]
  rfl

theorem recallShape_none (unknown : entries.lookup id = none) :
    recallShape entries id = Run.fail (.depthLimitExceeded 0) := by
  simp only [recallShape, unknown]

theorem entries_suffix {before after : Memo Shape} (grown : before ≤ after)
    (suffix : entries <:+ before.entries) : entries <:+ after.entries :=
  suffix.trans (Memo.suffix_of_le grown)

/-- A node whose shape is being computed on the left has no entry that the right
run could use, unless its shape is known on the left by now. -/
def Pending (world : World) (entries : List (SchemaId × Shape)) (chain : List SchemaId) : Prop :=
  ∀ id ∈ chain, world.left.shapes.find? id = none →
    ∃ other, world.ids id other ∧ entries.lookup other = none

theorem Pending.later (pending : Pending world entries chain) (grown : world.Extends next) :
    Pending next entries chain := by
  intro id listed unknown
  have earlier : world.left.shapes.find? id = none := by
    cases known : world.left.shapes.find? id with
    | none => rfl
    | some shape => cases unknown.symm.trans (ResolverState.shape_later known grown.left)
  obtain ⟨other, related, none⟩ := pending id listed earlier
  exact ⟨other, grown.ids _ _ related, none⟩

theorem lookup_none_of_suffix (suffix : older <:+ entries) (unknown : entries.lookup id = none) :
    older.lookup id = none := by
  obtain ⟨newer, rfl⟩ := suffix
  rw [List.lookup_append] at unknown
  exact (Option.or_eq_none_iff.mp unknown).2

theorem Pending.cons (pending : Pending world entries chain) (suffix : older <:+ entries)
    (related : world.ids id other) (fresh : older.lookup other = none) :
    Pending world older (id :: chain) := by
  intro key listed unknown
  rcases List.mem_cons.mp listed with rfl | listed
  · exact ⟨other, related, fresh⟩
  · obtain ⟨otherKey, pair, none⟩ := pending key listed unknown
    exact ⟨otherKey, pair, lookup_none_of_suffix suffix none⟩

/-- The chains of both runs, for a node before the bound. -/
structure Chained (core bound : Nat) (world : World) (chain otherChain : List SchemaId) : Prop where
  related : List.Forall₂ world.ids chain otherChain
  pending : Pending world world.right.shapes.entries chain
  above : ∀ other ∈ otherChain, core ≤ other.index → bound ≤ other.index

theorem Chained.nil : Chained core bound world [] [] :=
  ⟨.nil, fun _ listed => (List.not_mem_nil listed).elim,
    fun _ listed => (List.not_mem_nil listed).elim⟩

theorem Chained.cons (chained : Chained core (other.index + 1) world chain otherChain)
    (related : world.ids id other) (unknown : world.right.shapes.find? other = none) :
    Chained core other.index world (id :: chain) (other :: otherChain) := by
  refine ⟨.cons related chained.related, chained.pending.cons (List.suffix_refl _) related unknown,
    fun key listed late => ?_⟩
  rcases List.mem_cons.mp listed with rfl | listed
  · exact Nat.le_refl _
  · exact Nat.le_of_succ_le (chained.above key listed late)

theorem Chained.narrow (chained : Chained core bound world chain otherChain)
    (within : other.Within core bound) : Chained core (other.index + 1) world chain otherChain := by
  refine ⟨chained.related, chained.pending, fun key listed late => ?_⟩
  have above := chained.above key listed late
  rcases within with early | below <;> omega

/-- A shape that the right state has learned below the bound is one that the left
state has learned, and for a node of the chain it is the same node. -/
theorem Chained.later (chained : Chained core bound world chain otherChain)
    (grown : world.Extends next) (linked : next.Linked core)
    (bounded : Bounded core bound world.right next.right) :
    Chained core bound next chain otherChain := by
  refine ⟨chained.related.imp grown.ids, fun id listed unknown => ?_, chained.above⟩
  obtain ⟨other, pair, none⟩ := chained.pending.later grown id listed unknown
  refine ⟨other, pair, ?_⟩
  cases known : next.right.shapes.find? other with
  | none => exact known
  | some shape =>
      rcases grown.tracked other shape known with ⟨earlier, found⟩ | ⟨twin, learned, twins, found⟩
      · cases none.symm.trans found
      · obtain ⟨otherId, inside, related⟩ := exists_counterpart chained.related listed
        cases linked.functional _ _ _ pair (grown.ids _ _ related)
        have late : core ≤ other.index := by
          rcases linked.fibre _ _ pair with rfl | synthetic
          · rcases linked.fibre _ _ twins with rfl | synthetic
            · cases unknown.symm.trans found
            · exact synthetic.late
          · exact synthetic.late
        rcases bounded other shape known with ⟨earlier, found'⟩ | early | below
        · cases none.symm.trans found'
        · omega
        · have above := chained.above other inside late
          omega

theorem keepShape_recalled (linked : world.Linked core) (related : world.ids id other)
    (known : world.right.shapes.find? other = some otherShape)
    (accounted : world.left.shapes.find? id = none →
      ShapeSound core world.left world.left.shapes.entries id shape) :
    Agrees core excuse world (keepShape id shape) (pure otherShape : Run Shape)
      fun kept otherKept next => Shape.Related next.ids kept otherKept := by
  let left := { world.left with shapes := (world.left.shapes.settle id shape).2 }
  have grown : world.left ≤ left := le_keepShape world.left id shape
  have linked' : (world.withLeft left).Linked core := by
    refine linked.grow grown (le_refl _) (linked.left.keepShape accounted) linked.right rfl
      (fun key otherKey found pair learned => ?_) (fun _ _ _ _ found => .inl found)
      (fun _ _ _ _ found => .inl found) (fun _ _ _ _ found => .inl found)
    rcases Memo.find?_settle_cases learned with earlier | ⟨rfl, -, -⟩
    · exact .inl ⟨found, earlier⟩
    · cases linked.functional _ _ _ related pair
      exact .inr ⟨otherShape, known⟩
  have ran : keepShape id shape world.left = (.ok _, (world.withLeft left).left) := rfl
  exact .done ran rfl (.of_right grown rfl fun _ _ pair => pair) linked'
    (linked'.settled.shapes_related related (Memo.find?_settle _ _ _) known)

theorem keepShape_agrees (linked : world.Linked core) (related : world.ids id other)
    (accounted : world.left.shapes.find? id = none →
      ShapeSound core world.left world.left.shapes.entries id shape)
    (accounted' : world.right.shapes.find? other = none →
      ShapeSound core world.right world.right.shapes.entries other otherShape) :
    Agrees core excuse world (keepShape id shape) (keepShape other otherShape)
      fun kept otherKept next => Shape.Related next.ids kept otherKept := by
  let left := { world.left with shapes := (world.left.shapes.settle id shape).2 }
  let right := { world.right with shapes := (world.right.shapes.settle other otherShape).2 }
  let last : World := ⟨left, right, world.ids⟩
  have grown : world.left ≤ left := le_keepShape world.left id shape
  have grown' : world.right ≤ right := le_keepShape world.right other otherShape
  have known := Memo.find?_settle world.left.shapes id shape
  have known' := Memo.find?_settle world.right.shapes other otherShape
  have linked' : last.Linked core := by
    refine linked.grow grown grown' (linked.left.keepShape accounted)
      (linked.right.keepShape accounted') rfl (fun key otherKey found pair learned => ?_)
      (fun _ _ _ _ found => .inl found) (fun _ _ _ _ found => .inl found)
      (fun _ _ _ _ found => .inl found)
    rcases Memo.find?_settle_cases learned with earlier | ⟨rfl, -, -⟩
    · exact .inl ⟨found, earlier⟩
    · cases linked.functional _ _ _ related pair
      exact .inr ⟨_, known'⟩
  have extended : world.Extends last := by
    refine ⟨grown, grown', fun _ _ pair => pair, fun key kept learned => ?_⟩
    rcases Memo.find?_settle_cases learned with earlier | ⟨rfl, -, -⟩
    · exact .inl ⟨kept, earlier⟩
    · exact .inr ⟨id, _, related, known⟩
  have ran : keepShape id shape world.left = (.ok _, last.left) := rfl
  have ran' : keepShape other otherShape world.right = (.ok _, last.right) := rfl
  exact .done ran ran' extended linked' (linked'.settled.shapes_related related known known')

def ResolveSteps (core limit steps : Nat) : Prop :=
  ∀ limit' steps', ResolveAgrees core (steps' < steps) (resolveWithin limit steps)
    (resolveWithin limit' steps')

def RecallSteps (core limit steps : Nat) : Prop :=
  ∀ chain older world id other, world.Linked core → older <:+ world.right.shapes.entries →
    Pending world older chain → world.ids id other →
    Agrees core True world (flattenWithin limit steps chain id) (recallShape older other)
      fun shape otherShape next => Shape.Related next.ids shape otherShape

def FlattenSteps (core limit steps : Nat) : Prop :=
  ∀ limit' steps' chain otherChain world id other, world.Linked core →
    Chained core (other.index + 1) world chain otherChain → world.ids id other →
    Agrees core (steps' < steps) world (flattenWithin limit steps chain id)
      (flattenWithin limit' steps' otherChain other)
      fun shape otherShape next => Shape.Related next.ids shape otherShape

theorem FlattenSteps.start {limit steps : Nat} (flattens : FlattenSteps core limit steps)
    (limit' steps' : Nat) : FlattenAgrees core (steps' < steps) (flattenWithin limit steps [])
      (flattenWithin limit' steps' []) :=
  fun world id other linked related => flattens limit' steps' [] [] world id other linked .nil related

theorem resolveSteps_succ {limit steps : Nat} (resolves : ResolveSteps core limit steps)
    (flattens : FlattenSteps core limit steps) : ResolveSteps core limit (steps + 1) := by
  intro limit' steps' world id other linked related
  cases steps' with
  | zero => exact .other_out_of_steps (Nat.succ_pos _) limit'
  | succ steps' =>
      have projects := project_agrees (resolves limit' steps')
        (fun world id other linked related =>
          (resolves 0 1 world id other linked related).weaken fun _ => trivial)
        (flattens.start limit' steps')
        (fun world id other linked related =>
          (flattens.start 0 0 world id other linked related).weaken fun _ => trivial)
        (resolveWithin_meets _ _) (resolveWithin_meets _ _) (flattenWithin_meets _ _ _)
        (flattenWithin_meets _ _ _)
      exact (resolveStep_agrees projects world id other linked related).weaken Nat.succ_lt_succ

theorem flattenWithin_unknown {limit steps : Nat} (unknown : state.shapes.find? id = none)
    (free : ¬ chain.contains id = true) :
    flattenWithin limit (steps + 1) chain id state =
      (flattenNode (resolveWithin limit steps) (flattenWithin limit steps (id :: chain)) id >>=
        keepShape id) state := by
  change unlessKnown chain id _ state = _
  simp only [unlessKnown, bind_ok (read_apply _), unknown, free]
  rfl

theorem flattenWithin_none {limit : Nat} (unknown : state.shapes.find? id = none)
    (free : ¬ chain.contains id = true) :
    flattenWithin limit 0 chain id state = (.error (.depthLimitExceeded limit), state) := by
  change unlessKnown chain id _ state = _
  simp only [unlessKnown, bind_ok (read_apply _), unknown, free]
  rfl

theorem flattenWithin_cyclic {limit steps : Nat} (unknown : state.shapes.find? id = none)
    (cyclic : chain.contains id = true) :
    flattenWithin limit steps chain id state = (.error (.cyclicInheritance id), state) := by
  have fails (compute : Run Shape) :
      unlessKnown chain id compute state = (.error (.cyclicInheritance id), state) := by
    simp only [unlessKnown, bind_ok (read_apply _), unknown, cyclic, if_true]
    rfl
  cases steps <;> exact fails _

/-- The left run computes a shape that the right state remembers: it is compared
with what accounts for the entry. -/
theorem recallSteps_of {limit steps : Nat}
    (computes : ∀ chain older world id other otherShape, world.Linked core →
      (other, otherShape) :: older <:+ world.right.shapes.entries →
      Pending world older (id :: chain) → world.ids id other →
      world.left.shapes.find? id = none → ¬ chain.contains id = true →
      Agrees core True world (flattenWithin limit steps chain id) (pure otherShape : Run Shape)
        fun shape otherShape next => Shape.Related next.ids shape otherShape) :
    RecallSteps core limit steps := by
  intro chain entries world id other linked suffix pending related
  cases found : entries.lookup other with
  | none => exact .excused trivial (by rw [recallShape_none found]; rfl)
  | some otherShape =>
      rw [recallShape_some found]
      have known' := shape_of_suffix linked.right suffix found
      cases known : world.left.shapes.find? id with
      | some shape =>
          exact .done (flattenWithin_known known limit steps chain).now rfl (.refl world) linked
            (linked.settled.shapes_related related known known')
      | none =>
          obtain ⟨older, entry⟩ := Memo.exists_older (found : (⟨entries⟩ : Memo Shape).find? other = _)
          have fresh := (linked.right.shapes _ _ _ (entry.trans suffix)).fresh
          refine computes chain older world id other otherShape linked (entry.trans suffix)
            (pending.cons ((List.suffix_cons _ _).trans entry) related fresh) related known ?_
          intro cyclic
          obtain ⟨otherId, pair, none⟩ := pending id (List.elem_iff.mp cyclic) known
          cases linked.functional _ _ _ related pair
          cases found.symm.trans none

theorem recallSteps_zero (limit : Nat) : RecallSteps core limit 0 :=
  recallSteps_of fun _ _ _ _ _ _ _ _ _ _ unknown free => .limited (flattenWithin_none unknown free)

theorem recallSteps_succ {limit steps : Nat} (resolves : ResolveSteps core limit steps)
    (recalls : RecallSteps core limit steps) : RecallSteps core limit (steps + 1) := by
  refine recallSteps_of fun chain older world id other otherShape linked entry pending related
    unknown free => ?_
  have accounted := linked.right.shapes _ _ _ entry
  have parts : Parts core True other.index
      (fun world => older <:+ world.right.shapes.entries ∧ Pending world older (id :: chain))
      (resolveWithin limit steps) (resolveWithin 0 1) (flattenWithin limit steps (id :: chain))
      (recallShape older) := by
    refine
      { resolves := fun world id other linked related =>
          (resolves 0 1 world id other linked related).weaken fun _ => trivial
        meets := resolveWithin_meets 0 1
        flattens := fun world id other linked framed related _ => ?_
        keeps := fun world next framed grown _ _ =>
          ⟨entries_suffix (ResolverState.shapes_le grown.right) framed.1, framed.2.later grown⟩ }
    have agrees := recalls _ _ world id other linked framed.1 framed.2 related
    cases found : older.lookup other with
    | none => exact .excused trivial (by rw [recallShape_none found]; rfl)
    | some shape =>
        rw [recallShape_some found] at agrees ⊢
        refine .weaken ((agrees.settled rfl).imp ?_) False.elim
        exact fun _ _ next _ _ ⟨_, same, shapes⟩ => ⟨shapes, Bounded.of_shapes_eq (by rw [same])⟩
  have suffix := (List.suffix_cons _ _).trans entry
  have bodies := ((flattenNode_agrees parts linked ⟨suffix, pending⟩ related).and_left
    (flattenNode_meets (resolveWithin_meets _ _) (flattenWithin_meets _ _ _) linked.left id)).settled
    accounted.computed.now
  refine .congr_left (bodies.bind_left ?_) (flattenWithin_unknown unknown free)
  rintro shape _ middle grown linked' right ⟨rfl, -, -, -, computes⟩
  refine keepShape_recalled linked' (grown.ids _ _ related) ?_ computes.shape_sound
  rw [right]
  exact shape_of_suffix linked.right entry List.lookup_cons_self

/-- Where neither state knows the shape, both are computing it already or neither
is. -/
theorem Chained.contains_eq (chained : Chained core (other.index + 1) world chain otherChain)
    (linked : world.Linked core) (related : world.ids id other) :
    (chain.contains id = true ↔ otherChain.contains other = true) ∧
      (chain.contains id = true → id = other) := by
  have same (listed : other ∈ otherChain) {twin : SchemaId} (pair : world.ids twin other) :
      twin = other := by
    rcases linked.fibre _ _ pair with equal | synthetic
    · exact equal
    · have above := chained.above other listed synthetic.late
      omega
  have into (cyclic : chain.contains id = true) : other ∈ otherChain := by
    obtain ⟨twin, inside, pair⟩ := exists_counterpart chained.related (List.elem_iff.mp cyclic)
    cases linked.functional _ _ _ related pair
    exact inside
  refine ⟨⟨fun cyclic => List.elem_iff.mpr (into cyclic), fun cyclic => ?_⟩,
    fun cyclic => same (into cyclic) related⟩
  have listed := List.elem_iff.mp cyclic
  obtain ⟨twin, inside, pair⟩ := exists_origin chained.related listed
  rw [same listed related, ← same listed pair]
  exact List.elem_iff.mpr inside

theorem flattenSteps_of {limit steps : Nat} (recalls : RecallSteps core limit steps)
    (computes : ∀ limit' steps' chain otherChain world id other, world.Linked core →
      Chained core (other.index + 1) world chain otherChain → world.ids id other →
      world.left.shapes.find? id = none → world.right.shapes.find? other = none →
      ¬ chain.contains id = true → ¬ otherChain.contains other = true →
      Agrees core (steps' < steps) world (flattenWithin limit steps chain id)
        (flattenWithin limit' steps' otherChain other)
        fun shape otherShape next => Shape.Related next.ids shape otherShape) :
    FlattenSteps core limit steps := by
  intro limit' steps' chain otherChain world id other linked chained related
  cases known : world.left.shapes.find? id with
  | some shape =>
      obtain ⟨otherShape, known'⟩ := linked.shapes _ _ _ related known
      exact .done (flattenWithin_known known limit steps chain).now
        (flattenWithin_known known' limit' steps' otherChain).now (.refl world) linked
        (linked.settled.shapes_related related known known')
  | none =>
      cases known' : world.right.shapes.find? other with
      | some otherShape =>
          have agrees := recalls chain _ world id other linked (List.suffix_refl _) chained.pending
            related
          rw [recallShape_some known'] at agrees
          refine .congr_right (.weaken ((agrees.settled rfl).imp fun _ _ _ _ _ shapes => shapes.2.2)
            False.elim) ?_
          exact (flattenWithin_known known' limit' steps' otherChain).now
      | none =>
          obtain ⟨same, equal⟩ := chained.contains_eq linked related
          by_cases cyclic : chain.contains id = true
          · cases equal cyclic
            exact .failed (flattenWithin_cyclic known cyclic)
              (flattenWithin_cyclic known' (same.mp cyclic))
          · exact computes limit' steps' chain otherChain world id other linked chained related known
              known' cyclic (fun cyclic' => cyclic (same.mpr cyclic'))

theorem flattenSteps_zero (limit : Nat) : FlattenSteps core limit 0 :=
  flattenSteps_of (recallSteps_zero limit) fun _ _ _ _ _ _ _ _ _ _ unknown _ free _ =>
    .limited (flattenWithin_none unknown free)

theorem flattenSteps_succ {limit steps : Nat} (resolves : ResolveSteps core limit steps)
    (recalls : RecallSteps core limit (steps + 1)) (flattens : FlattenSteps core limit steps) :
    FlattenSteps core limit (steps + 1) := by
  refine flattenSteps_of recalls fun limit' steps' chain otherChain world id other linked chained
    related unknown unknown' free free' => ?_
  cases steps' with
  | zero => exact .excused (Nat.succ_pos _) (flattenWithin_none unknown' free')
  | succ steps' =>
      have parts : Parts core (steps' < steps) other.index
          (fun world => Chained core other.index world (id :: chain) (other :: otherChain))
          (resolveWithin limit steps) (resolveWithin limit' steps')
          (flattenWithin limit steps (id :: chain))
          (flattenWithin limit' steps' (other :: otherChain)) := by
        refine
          { resolves := resolves limit' steps'
            meets := resolveWithin_meets limit' steps'
            flattens := fun world id other linked framed related within => ?_
            keeps := fun world next framed grown linked bounded => framed.later grown linked bounded }
        refine ((flattens limit' steps' _ _ world id other linked (framed.narrow within)
          related).and_right (flattenWithin_meets _ _ _ other world.right linked.right)).imp ?_
        intro shape otherShape next _ _ post
        obtain ⟨shapes, _, _, bounded⟩ := post
        refine ⟨shapes, bounded.widen ?_⟩
        rcases within with early | below
        · exact .inr early
        · exact .inl below
      have bodies := ((flattenNode_agrees parts linked (chained.cons related unknown') related).and_left
        (flattenNode_meets (resolveWithin_meets _ _) (flattenWithin_meets _ _ _) linked.left
          id)).and_right
        (flattenNode_meets (resolveWithin_meets _ _) (flattenWithin_meets _ _ _) linked.right other)
      refine .congr_left (.congr_right (.weaken (bodies.bind ?_) Nat.succ_lt_succ)
        (flattenWithin_unknown unknown' free')) (flattenWithin_unknown unknown free)
      rintro shape otherShape middle grown linked' ⟨⟨-, -, computes⟩, -, computes'⟩
      exact keepShape_agrees linked' (grown.ids _ _ related) computes.shape_sound
        computes'.shape_sound

theorem steps_agree (limit steps : Nat) : ResolveSteps core limit steps ∧
    RecallSteps core limit steps ∧ FlattenSteps core limit steps := by
  induction steps with
  | zero =>
      exact ⟨fun _ _ _ _ _ _ _ => .out_of_steps limit,
        recallSteps_zero limit, flattenSteps_zero limit⟩
  | succ steps ih =>
      have recalls := recallSteps_succ ih.1 ih.2.1
      exact ⟨resolveSteps_succ ih.1 ih.2.2, recalls, flattenSteps_succ ih.1 recalls ih.2.2⟩

theorem resolveWithin_agrees (limit steps : Nat) : ResolveSteps core limit steps :=
  (steps_agree limit steps).1

theorem flattenWithin_agrees (limit steps limit' steps' : Nat) :
    FlattenAgrees core (steps' < steps) (flattenWithin limit steps [])
      (flattenWithin limit' steps' []) :=
  (steps_agree limit steps).2.2.start limit' steps'

end Conform.Agreement
