import Conform.Proofs.Resolver.Following

/-! Shapes.  A shape is computed from shapes that are known by then, so it could be
computed again from these. -/

namespace Conform.Resolver

open Run

variable {core bound : Nat} {state before middle after : ResolverState}
  {id target resolved : SchemaId} {shape : Shape}

section

variable {resolve : SchemaId → Run SchemaId} {flatten : SchemaId → Run Shape}

theorem recallShape_known {entries : List (SchemaId × Shape)} (known : entries.lookup id = some shape) :
    Lasts (recallShape entries id) state shape := by
  intro later _
  simp only [recallShape, known, succeed_apply]

/-- The shape is computed again, from now on, from the shapes that are known. -/
structure Computes (core bound : Nat)
    (compute : (SchemaId → Run SchemaId) → (SchemaId → Run Shape) → Run Shape)
    (before : ResolverState) (shape : Shape) (after : ResolverState) : Prop where
  lasts : ∀ later, after ≤ later →
    Lasts (compute (resolveWithin 0 1) (recallShape later.shapes.entries)) later shape
  within : ∀ type ∈ shape.types, type.Within core bound
  distinct : shape.names.Nodup
  bounded : Bounded core bound before after

theorem flatten_known {later : ResolverState} (grown : state ≤ later)
    (known : state.shapes.find? id = some shape) :
    Lasts (recallShape later.shapes.entries id) later shape :=
  recallShape_known (ResolverState.shape_later known grown)

/-- The shape of the node behind another one, which has to have a shape. -/
def shapeBehind (resolve : SchemaId → Run SchemaId) (flatten : SchemaId → Run Shape)
    (reject : Kind → SchemaError) (target : SchemaId) : Run Shape := do
  let resolved ← resolve target
  let node ← Run.node resolved
  if node.isInterfaceLike then flatten resolved else Run.fail (reject node.kind)

theorem flattenTarget_eq (combinator : Combinator) (target : SchemaId) :
    flattenTarget resolve flatten combinator target =
      shapeBehind resolve flatten (.invalidCombinatorTarget combinator.kind) target :=
  rfl

theorem shapeBehind_meets (resolves : ResolveMeets core resolve)
    (flattens : FlattenMeets core flatten) (sound : state.Sound core) (reject : Kind → SchemaError)
    (early : target.index ≤ bound) (leadsWithin : LeadsWithin core bound state target) :
    Meets (shapeBehind resolve flatten reject target) state (Resolving core state)
      (Computes core bound (shapeBehind · · reject target) state) := by
  refine .bind (resolves target state sound) ?_
  intro resolved middle resolving post
  obtain ⟨resolved_now, leads, bounded⟩ := post
  refine .bind (.node resolved resolving) ?_
  rintro node _ - ⟨found, rfl⟩
  cases like : node.isInterfaceLike with
  | false => exact .fail resolving
  | true =>
      have within := leadsWithin middle resolved node resolving.grown leads found like
      have wide : resolved.index + 1 ≤ bound ∨ resolved.index + 1 ≤ core := within.symm
      refine (flattens resolved middle resolving.sound).imp (fun _ => resolving.trans) ?_
      intro shape after flattening post
      obtain ⟨known, late⟩ := post
      obtain ⟨older, -, accounted⟩ := shape_sound flattening.sound known
      refine ⟨fun later grown => ?_, fun type listed => ?_, accounted.distinct,
        (bounded.widen (.inl early)).trans (late.widen wide)⟩
      · have grown' := le_trans flattening.grown grown
        refine .bind (resolved_now.later grown')
          (.bind (.node (ResolverState.get?_later found grown')) ?_)
        simpa only [like, if_true] using flatten_known grown known
      · exact Within.widen (accounted.within type listed) (by omega)

theorem inheritParents_meets (resolves : ResolveMeets core resolve)
    (flattens : FlattenMeets core flatten) (sound : state.Sound core) (parents : List SchemaId)
    (early : ∀ parent ∈ parents, parent.index < bound)
    (within : ∀ type ∈ shape.types, type.Within core bound) (distinct : shape.names.Nodup) :
    Meets (inheritParents resolve flatten shape parents) state (Resolving core state)
      (Computes core bound (inheritParents · · shape parents) state) := by
  induction parents generalizing shape state with
  | nil => exact .pure (.refl sound) ⟨fun _ _ => .pure, within, distinct, .refl⟩
  | cons parent rest ih =>
      have first := early parent (List.mem_cons_self ..)
      refine .bind (resolves parent state sound) ?_
      intro resolved middle resolving post
      obtain ⟨resolved_now, leads, bounded⟩ := post
      refine .bind (.node resolved resolving) ?_
      rintro node _ - ⟨found, rfl⟩
      cases node with
      | interface properties index parents =>
          have place : resolved.Within core bound := Within.widen (leads.interfaceLike found rfl) (.inl first)
          have wide : resolved.index + 1 ≤ bound ∨ resolved.index + 1 ≤ core := place.symm
          refine .bind ((flattens resolved middle resolving.sound).keep fun _ => resolving.trans) ?_
          intro inherited flatState flattening post
          obtain ⟨grown, known, late⟩ := post
          obtain ⟨older, -, accounted⟩ := shape_sound flattening.sound known
          refine .imp (ih flattening.sound
            (fun other listed => early other (List.mem_cons_of_mem _ listed))
            (fun type listed => by
              rcases Shape.types_inherit listed with own | taken
              · exact within type own
              · exact Within.widen (accounted.within type taken) (by omega))
            (Shape.distinct_inherit distinct)) (fun _ => flattening.trans) ?_
          intro result after resting computes
          refine ⟨fun later grown' => ?_, computes.within, computes.distinct,
            ((bounded.widen (.inl (Nat.le_of_lt first))).trans (late.widen wide)).trans
              computes.bounded⟩
          have grown'' := le_trans grown.grown (le_trans resting.grown grown')
          exact .bind (resolved_now.later grown'')
            (.bind (.node (ResolverState.get?_later found grown''))
              (.bind (flatten_known (le_trans resting.grown grown') known)
                (computes.lasts later grown')))
      | _ => exact .fail resolving

/-- What a combinator makes of the shape of its target. -/
def combine (flatten : SchemaId → Run Shape) (base : Shape) : Combinator → Run Shape
  | .pick keys => Run.ofExcept (base.pick keys)
  | .optional => return base.allOptional
  | .without keys => return base.without keys
  | .overwrite patch => return base.overwrite (← flatten patch)

theorem combine_meets (flattens : FlattenMeets core flatten) (sound : state.Sound core)
    (combinator : Combinator) {base : Shape} (within : ∀ type ∈ base.types, type.Within core bound)
    (distinct : base.names.Nodup)
    (early : ∀ patch, combinator = .overwrite patch → patch.index < bound) :
    Meets (combine flatten base combinator) state (Resolving core state)
      (Computes core bound (fun _ flatten => combine flatten base combinator) state) := by
  have stays := Resolving.refl sound
  cases combinator with
  | pick keys =>
      cases picked : base.pick keys with
      | error error =>
          have ran : combine flatten base (.pick keys) state = (.error error, state) := by
            simp only [combine, picked, ofExcept_apply]
          exact .of_error ran stays
      | ok shape =>
          have ran (later : ResolverState) :
              combine flatten base (.pick keys) later = (.ok shape, later) := by
            simp only [combine, picked, ofExcept_apply]
          exact .of_ok (ran state) stays ⟨fun _ _ later' _ => ran later',
            fun type listed => within type (Shape.types_pick picked listed),
            Shape.distinct_pick picked, .refl⟩
  | optional =>
      exact .pure stays ⟨fun _ _ => .pure, by simpa using within, by simpa using distinct, .refl⟩
  | without keys =>
      exact .pure stays ⟨fun _ _ => .pure,
        fun type listed => within type (Shape.types_without listed),
        Shape.distinct_without distinct, .refl⟩
  | overwrite patch =>
      have below := early patch rfl
      refine .bind (flattens patch state sound) ?_
      intro top after flattening post
      obtain ⟨known, late⟩ := post
      obtain ⟨older, -, accounted⟩ := shape_sound flattening.sound known
      refine .pure flattening ⟨fun later grown => .bind (flatten_known grown known) .pure,
        fun type listed => ?_, Shape.distinct_overwrite distinct, late.widen (.inl below)⟩
      rcases Shape.types_overwrite listed with own | taken
      · exact within type own
      · exact Within.widen (accounted.within type taken) (.inl (Nat.le_of_lt below))

theorem flattenNode_meets (resolves : ResolveMeets core resolve)
    (flattens : FlattenMeets core flatten) (sound : state.Sound core) (id : SchemaId) :
    Meets (flattenNode resolve flatten id) state (Resolving core state)
      (Computes core id.index (flattenNode · · id) state) := by
  have stays := Resolving.refl sound
  refine .bind (.node id stays) ?_
  rintro node _ - ⟨found, rfl⟩
  have earlier := sound.ordered id node found
  cases node with
  | interface properties index parents =>
      have own : ∀ type ∈ (Shape.own properties index).types, type.Within core id.index := by
        intro type listed
        refine .inr (earlier type ?_)
        rcases Shape.types_own listed with ⟨property, member, rfl⟩ | ⟨signature, rfl, rfl⟩
        · simp only [Node.children, List.mem_append, List.mem_map]
          exact .inl (.inl ⟨property, member, rfl⟩)
        · simp [Node.children]
      refine .imp (inheritParents_meets resolves flattens sound parents
        (fun parent listed => earlier parent (by simp [Node.children, listed])) own
        (Shape.distinct_own _ _)) (fun _ grown => grown) fun shape after grown computes => ?_
      exact ⟨fun later grown' => .bind
        (.node (ResolverState.get?_later found (le_trans grown.grown grown')))
        (computes.lasts later grown'), computes.within, computes.distinct, computes.bounded⟩
  | mapped combinator target =>
      have below : target.index < id.index := earlier target (by simp [Node.children])
      refine .bind (shapeBehind_meets resolves flattens sound (.invalidCombinatorTarget combinator.kind)
        (Nat.le_of_lt below) (.of_early below state)) ?_
      intro base middle grown computes
      refine (combine_meets flattens grown.sound combinator computes.within computes.distinct
        fun patch same => earlier patch (by simp [same, Node.children, Combinator.children])).imp
        (fun _ => grown.trans) fun shape after grown' combines => ?_
      exact ⟨fun later grown'' => .bind (.node (ResolverState.get?_later found
          (le_trans grown.grown (le_trans grown'.grown grown''))))
        (.bind (computes.lasts later (le_trans grown'.grown grown'')) (combines.lasts later grown'')),
        combines.within, combines.distinct, computes.bounded.trans combines.bounded⟩
  | reference _ | indexedAccess _ _ =>
      refine .imp (shapeBehind_meets resolves flattens sound .notInterfaceLike (Nat.le_refl _)
        (.of_link found fun closed => closed)) (fun _ grown => grown) fun shape after grown computes => ?_
      exact ⟨fun later grown' => .bind
        (.node (ResolverState.get?_later found (le_trans grown.grown grown')))
        (computes.lasts later grown'), computes.within, computes.distinct, computes.bounded⟩
  | _ => exact .fail stays

end

end Conform.Resolver
