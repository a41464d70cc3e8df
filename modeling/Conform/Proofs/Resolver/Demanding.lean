import Conform.Proofs.Resolver.Waiting

/-! Shapes and projections that are asked for again.  Each is a demand while it is worked out: its
parts are done with the demand pending, and nothing is remembered before they have succeeded. -/

namespace Conform.Resolver

open Run

variable {core limit steps : Nat} {chain : List SchemaId} {id object target : SchemaId} {index : String}
  {state after : ResolverState} {pending : List Demand}

theorem Open.cons {demand : Demand} (unmet : Open pending state) (own : demand.Unmet state) :
    Open (demand :: pending) state :=
  List.forall_mem_cons.mpr ⟨own, unmet⟩

section

variable {resolve : Nat → List SchemaId → SchemaId → Run SchemaId}
  {flatten : Nat → List SchemaId → SchemaId → Run Shape}
  (resolves : ∀ id state, state.Sound core →
    Careful core limit steps chain 1 (fun steps chain => resolve steps chain id) state)
  (flattens : ∀ id state, state.Sound core →
    Careful core limit steps chain 1 (fun steps chain => flatten steps chain id) state)

include resolves flattens

theorem shapeBehind_careful (reject : Kind → SchemaError) (target : SchemaId)
    (sound : state.Sound core) :
    Careful core limit steps chain 1
      (fun steps chain => shapeBehind (resolve steps chain) (flatten steps chain) reject target) state := by
  refine .bind (resolves target state sound) fun resolved middle _ resolving =>
    .bind (.node resolving.sound resolved) fun node middle _ resolving => ?_
  cases node.isInterfaceLike with
  | true => exact flattens resolved middle resolving.sound
  | false => exact .fail resolving.sound _

theorem inheritParents_careful (shape : Shape) (parents : List SchemaId) (sound : state.Sound core) :
    Careful core limit steps chain 1
      (fun steps chain => inheritParents (resolve steps chain) (flatten steps chain) shape parents)
      state := by
  induction parents generalizing shape state with
  | nil => exact .pure sound shape
  | cons parent rest ih =>
      refine .bind (resolves parent state sound) fun resolved middle _ resolving =>
        .bind (.node resolving.sound resolved) fun node middle _ resolving => ?_
      cases node with
      | interface properties index parents =>
          exact .bind (flattens resolved middle resolving.sound) fun inherited middle _ resolving =>
            ih _ resolving.sound
      | _ => exact .fail resolving.sound _

theorem flattenNode_careful (id : SchemaId) (sound : state.Sound core) :
    Careful core limit steps chain 1
      (fun steps chain => flattenNode (resolve steps chain) (flatten steps chain) id) state := by
  refine .bind (.node sound id) fun node middle _ resolving => ?_
  have sound := resolving.sound
  cases node with
  | reference _ | indexedAccess _ _ =>
      exact shapeBehind_careful resolves flattens .notInterfaceLike id sound
  | interface properties index parents =>
      exact inheritParents_careful resolves flattens _ parents sound
  | mapped combinator target =>
      refine .bind (shapeBehind_careful resolves flattens (.invalidCombinatorTarget combinator.kind)
        target sound) fun base middle _ resolving => ?_
      have sound := resolving.sound
      cases combinator with
      | pick keys =>
          dsimp only
          cases base.pick keys with
          | ok picked => exact .pure sound picked
          | error error => exact .fail sound error
      | optional | without keys => exact .pure sound _
      | overwrite patch =>
          exact .bind (flattens patch middle sound) fun _ _ _ resolving => .pure resolving.sound _
  | _ => exact .fail sound _

end

/-- What `unlessKnown` does where the shape is unknown and no node waits for it. -/
theorem unlessKnown_compute {compute : Run Shape} (unknown : state.shapes.find? id = none)
    (apart : ¬ chain.contains id = true) : unlessKnown chain id compute state = compute state := by
  simp only [unlessKnown, bind_ok (read_apply _), unknown, if_neg apart]

theorem unlessKnown_cyclic {compute : Run Shape} (unknown : state.shapes.find? id = none)
    (waits : chain.contains id = true) :
    unlessKnown chain id compute state = (.error (.cyclicInheritance id), state) := by
  simp only [unlessKnown, bind_ok (read_apply _), unknown, if_pos waits, Run.fail]

/-- While the shape is unknown, it is not had without the node. -/
theorem flattenWithin_stuck {bound : Nat} (unknown : state.shapes.find? id = none)
    (stuck : Stuck (fun steps chain => flattenNode (resolveWithin limit steps)
      (flattenWithin limit steps (id :: chain)) id) bound state) :
    Stuck (fun steps chain => flattenWithin limit steps chain id) (bound + 1) state := by
  intro steps below chain
  by_cases waits : chain.contains id = true
  · refine ⟨.cyclicInheritance id, state, ?_⟩
    cases steps <;> exact unlessKnown_cyclic unknown waits
  · cases steps with
    | zero => exact ⟨_, state, unlessKnown_compute unknown waits⟩
    | succ steps =>
        obtain ⟨error, after, failed⟩ := stuck steps (Nat.lt_of_succ_lt_succ below) chain
        exact ⟨error, after, (unlessKnown_compute unknown waits).trans (bind_error failed)⟩

theorem Open.keepShape {shape : Shape} (unmet : Open pending state)
    (apart : .shape id ∉ pending) :
    Open pending { state with shapes := (state.shapes.settle id shape).2 } := by
  intro demand listed
  have before := unmet demand listed
  cases demand with
  | projection other => exact before
  | shape other =>
      change (state.shapes.settle id shape).2.find? other = none
      cases known : (state.shapes.settle id shape).2.find? other with
      | none => rfl
      | some found =>
          rcases Memo.find?_settle_cases known with earlier | ⟨rfl, -, -⟩
          · cases before.symm.trans earlier
          · exact (apart listed).elim

theorem flattenWithin_answers (chain : List SchemaId) (sound : state.Sound core) {shape : Shape}
    (ran : flattenWithin limit steps chain id state = (.ok shape, after)) :
    Settles core (flattenWithin limit steps chain id) after shape ∧
      Holds core (fun steps chain => flattenWithin limit steps chain id) after shape := by
  obtain ⟨known, -⟩ := (flattenWithin_meets limit steps chain id state sound).answers shape after ran
  exact ⟨.of_lasts (flattenWithin_known known limit steps chain),
    .of_lasts fun steps chain => flattenWithin_known known limit steps chain⟩

theorem flattenStep_spares (sound : state.Sound core) (unmet : Open pending state)
    (needed : Needed core limit pending state 1 fun steps chain => flattenWithin limit steps chain id)
    (node : ∀ pending, Open pending state →
      Needed core limit pending state 1 (fun steps chain => flattenNode (resolveWithin limit steps)
        (flattenWithin limit steps (id :: chain)) id) →
      Spares core pending
        (flattenNode (resolveWithin limit steps) (flattenWithin limit steps (id :: chain)) id)
        (flattenNode (resolveWithin limit steps) (flattenWithin limit steps (id :: chain)) id) state) :
    Spares core pending (flattenWithin limit (steps + 1) chain id)
      (flattenWithin limit (steps + 1) chain id) state := by
  cases known : state.shapes.find? id with
  | some shape =>
      have ran := flattenWithin_known known limit (steps + 1) chain state (le_refl _)
      exact .of_idle (congrArg Prod.snd ran) sound unmet rfl
  | none =>
      by_cases waits : chain.contains id = true
      · have ran : flattenWithin limit (steps + 1) chain id state = (.error (.cyclicInheritance id), state) :=
          unlessKnown_cyclic known waits
        exact .of_idle (congrArg Prod.snd ran) sound unmet rfl
      have inner : Needed core limit (.shape id :: pending) state 1
          fun steps chain => flattenNode (resolveWithin limit steps)
            (flattenWithin limit steps (id :: chain)) id :=
        needed.cons (Nat.le_add_left 1 1) fun later _ unknown bound stuck =>
          ⟨flattenWithin_stuck unknown stuck, flattenWithin_stuck unknown stuck⟩
      have runs (later : ResolverState) (unknown : later.shapes.find? id = none) :
          flattenWithin limit (steps + 1) chain id later = (do
            let shape ← flattenNode (resolveWithin limit steps) (flattenWithin limit steps (id :: chain)) id
            keepShape id shape) later :=
        unlessKnown_compute unknown waits
      refine (node (.shape id :: pending) (unmet.cons known) inner).of_pending known
        (fun error before after _ unknown failed => (runs before unknown).trans (bind_error failed)) ?_
      intro shape middle ran resolving traced unknown others
      have whole := (runs state known).trans ((bind_ok ran).trans keepShape_apply)
      have apart : .shape id ∉ pending := fun listed =>
        (needed.shape_stuck listed sound unmet (steps + 2) (steps + 1) (Nat.lt_succ_self _)
          chain).not_ok whole
      refine ⟨(flattenWithin_meets limit (steps + 1) chain id state sound).leaves, ?_, ?_, ?_⟩
      · rw [whole]
        exact traced.trans resolving.grown (.of_arena_eq rfl) (le_keepShape _ _ _)
      · rw [whole]
        exact others.keepShape apart
      · exact fun error last failed => by cases whole.symm.trans failed

/-- What is left to do once the shape of the object is at hand. -/
def projectTail (id : SchemaId) (shape : Shape) (index : String) : Run SchemaId := do
  keepProjection id (← projectShape shape index)

/-- What an indexed access of which nothing is remembered has to do. -/
theorem project_compute {resolve : SchemaId → Run SchemaId} {flatten : SchemaId → Run Shape}
    (unknown : state.projections.find? id = none) :
    project resolve flatten id object index state =
      (shapeBehind resolve flatten .indexOnNonInterface object >>= (projectTail id · index)) state := by
  have skipped : project resolve flatten id object index state = (do
      let target ← resolve object
      let node ← Run.node target
      if node.isInterfaceLike then
        let shape ← flatten target
        projectTail id shape index
      else Run.fail (.indexOnNonInterface node.kind)) state := by
    simp only [project, bind_ok (read_apply _), unknown, projectTail]
  rw [skipped, shapeBehind, Run.bind_assoc]
  refine congrFun (congrArg (resolve object >>= ·) (funext fun target => ?_)) state
  rw [Run.bind_assoc]
  refine congrArg (Run.node target >>= ·) (funext fun node => ?_)
  cases node.isInterfaceLike <;> rfl

theorem hopWithin_compute (access : state.arena.get? id = some (.indexedAccess object index))
    (unknown : state.projections.find? id = none) :
    hopWithin limit steps id state =
      ((shapeBehind (resolveWithin limit steps) (flattenWithin limit steps []) .indexOnNonInterface object >>=
        (projectTail id · index)) >>= fun next => pure (some next)) state :=
  (bind_ok (node_apply access)).trans (bind_congr_first (project_compute unknown))

/-- While nothing is remembered of an access, it needs the shape of its object. -/
theorem hopWithin_stuck {bound : Nat} (access : state.arena.get? id = some (.indexedAccess object index))
    (unknown : state.projections.find? id = none)
    (stuck : Stuck (fun steps _ => shapeBehind (resolveWithin limit steps) (flattenWithin limit steps [])
      .indexOnNonInterface object) bound state) :
    Stuck (fun steps _ => hopWithin limit steps id) bound state := by
  intro steps below chain
  obtain ⟨error, after, failed⟩ := stuck steps below chain
  exact ⟨error, after, (hopWithin_compute access unknown).trans (bind_error (bind_error failed))⟩

/-- The union of a projection is the only node that it adds. -/
theorem projectShape_adds (shape : Shape) (index : String) (state : ResolverState) :
    (projectShape shape index state).2 = state ∨
      ∃ members, projectShape shape index state = Run.alloc (.union members) state := by
  unfold projectShape
  cases shape.property? index with
  | none => cases shape.index <;> exact .inl rfl
  | some property =>
      cases optional : property.optional with
      | false =>
          simp only [optional, Bool.false_eq_true, if_false]
          exact .inl rfl
      | true =>
          simp only [optional, if_true]
          cases included : includesUndefined property.type state with
          | mk outcome middle =>
              obtain rfl : state = middle := by
                simpa only [included] using (includesUndefined_meets property.type state).leaves
              cases outcome with
              | error error => exact .inl (congrArg Prod.snd (bind_error included))
              | ok answer =>
                  rw [bind_ok included]
                  cases answer with
                  | true => exact .inl rfl
                  | false => exact .inr ⟨_, rfl⟩

theorem Open.keepProjection {projected : SchemaId} (unmet : Open pending state)
    (apart : .projection id ∉ pending) :
    Open pending { state with projections := (state.projections.settle id projected).2 } := by
  intro demand listed
  have before := unmet demand listed
  cases demand with
  | shape other => exact before
  | projection other =>
      change (state.projections.settle id projected).2.find? other = none
      cases known : (state.projections.settle id projected).2.find? other with
      | none => rfl
      | some found =>
          rcases Memo.find?_settle_cases known with earlier | ⟨rfl, -, -⟩
          · cases before.symm.trans earlier
          · exact (apart listed).elim

/-- A projection that fails adds nothing.  Otherwise it is remembered, along with the node that it
has added. -/
theorem projectTail_cases (shape : Shape) (unknown : state.projections.find? id = none)
    (access : state.arena.get? id = some (.indexedAccess object index)) :
    (∃ error, projectTail id shape index state = (.error error, state)) ∨
      ∃ projected after, projectTail id shape index state = (.ok projected, after) ∧ state ≤ after ∧
        Traced state after ∧
        ∀ pending, Open pending state → .projection id ∉ pending → Open pending after := by
  rcases projectShape_adds shape index state with idle | ⟨members, added⟩
  · cases ran : projectShape shape index state with
    | mk outcome after =>
        rw [ran] at idle
        cases idle
        cases outcome with
        | error error => exact .inl ⟨error, bind_error ran⟩
        | ok projected =>
            exact .inr ⟨_, _, (bind_ok ran).trans keepProjection_apply, le_keepProjection _ _ _,
              .of_arena_eq rfl, fun _ unmet => unmet.keepProjection⟩
  · refine .inr ⟨_, _, (bind_ok (added.trans (alloc_apply _ _))).trans keepProjection_apply,
      le_trans (le_alloc _ _) (le_keepProjection _ _ _), fun other late early => ?_,
      fun pending unmet apart => Open.keepProjection (fun demand listed => ?_) apart⟩
    · have last : other = ⟨state.arena.size⟩ := by
        have bound : other.index < state.arena.size + 1 := by simpa only [Arena.size_alloc] using early
        cases other
        exact congrArg SchemaId.mk (Nat.le_antisymm (Nat.le_of_lt_succ bound) late)
      rw [Memo.settle_unknown unknown, last]
      refine ⟨id, .access (Arena.get?_mono (Arena.le_alloc _ _) access) unknown ?_⟩
      exact Memo.find?_cons.trans (if_pos rfl)
    · cases demand <;> exact unmet _ listed

/-- The step from an indexed access, with the shape of its object at hand. -/
theorem access_spares (sound : state.Sound core) (unmet : Open pending state)
    (access : state.arena.get? id = some (.indexedAccess object index))
    (needed : Needed core limit pending state 2 fun steps _ => hopWithin limit steps id)
    (behind : Careful core limit steps chain 1 (fun steps _ => shapeBehind (resolveWithin limit steps)
      (flattenWithin limit steps []) .indexOnNonInterface object) state) :
    Spares core pending (hopWithin limit steps id) (hopWithin limit steps id) state := by
  have start : id.Within core (id.index + 1) := .inr (Nat.lt_succ_self _)
  have leaves : Resolving core state (hopWithin limit steps id state).2 :=
    (hop_meets (project_meets (resolveWithin_meets _ _) (flattenWithin_meets _ _ _)) sound (.inl start)).leaves
  cases known : state.projections.find? id with
  | some projected =>
      have ran : hopWithin limit steps id state = (.ok (some projected), state) :=
        (bind_ok (node_apply access)).trans (bind_ok (project_known known).now)
      exact .of_idle (congrArg Prod.snd ran) sound unmet rfl
  | none =>
      have inner : Needed core limit (.projection id :: pending) state 1 fun steps _ =>
          shapeBehind (resolveWithin limit steps) (flattenWithin limit steps []) .indexOnNonInterface object :=
        needed.cons (Nat.le_add_left 1 1) fun later grown unknown bound stuck =>
          have own := hopWithin_stuck (ResolverState.get?_later access grown) unknown stuck
          ⟨own, own⟩
      refine (behind.spares (.projection id :: pending) (unmet.cons known) inner).of_pending known
        (fun error before after grown unknown failed =>
          (hopWithin_compute (ResolverState.get?_later access grown) unknown).trans
            (bind_error (bind_error failed))) ?_
      intro shape middle ran resolving traced unknown others
      have access' := ResolverState.get?_later access resolving.grown
      have again := (behind.answers shape middle ran).1 middle (le_refl _) resolving.sound
      rcases projectTail_cases shape unknown access' with
        ⟨error, failed⟩ | ⟨projected, after, done, grown, added, spares⟩
      · have whole := (hopWithin_compute access known).trans (bind_error ((bind_ok ran).trans failed))
        refine ⟨leaves, by rwa [whole], by rwa [whole], fun other last failed' => ?_⟩
        cases whole.symm.trans failed'
        exact (hopWithin_compute access' unknown).trans (bind_error ((bind_ok again).trans failed))
      · have whole := (hopWithin_compute access known).trans (bind_ok ((bind_ok ran).trans done))
        have apart : .projection id ∉ pending := fun listed =>
          (needed.projection_stuck listed sound unmet (steps + 1) steps (Nat.lt_succ_self _)
            chain).not_ok whole
        refine ⟨leaves, ?_, ?_, fun error last failed => by cases whole.symm.trans failed⟩
        · rw [whole]
          exact traced.trans resolving.grown added grown
        · rw [whole]
          exact spares pending others apart

end Conform.Resolver
