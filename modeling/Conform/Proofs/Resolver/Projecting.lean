import Conform.Proofs.Resolver.Bounds

/-! Projections.  The type that an indexed access stands for is found in the shape of
its object, and is known from then on. -/

namespace Conform.Resolver

open Run

variable {core bound : Nat} {state before middle after : ResolverState}
  {id target resolved : SchemaId} {shape : Shape}

theorem anyUndefined_meets (members : List SchemaId) (state : ResolverState) :
    Meets (anyUndefined members) state (state = ·) fun included _ =>
      Lasts (anyUndefined members) state included := by
  induction members with
  | nil => exact .pure rfl .pure
  | cons member rest ih =>
      refine .bind (.node member rfl) ?_
      rintro node _ rfl ⟨found, -⟩
      split
      · exact .pure rfl (.bind (.node found) .pure)
      · refine ih.imp (fun _ same => same) fun included _ _ lasts => .bind (.node found) ?_
        split
        · contradiction
        · exact lasts

theorem includesUndefined_meets (type : SchemaId) (state : ResolverState) :
    Meets (includesUndefined type) state (state = ·) fun included _ =>
      Lasts (includesUndefined type) state included := by
  refine .bind (.node type rfl) ?_
  rintro node _ rfl ⟨found, -⟩
  cases node with
  | union members =>
      exact (anyUndefined_meets _ _).imp (fun _ same => same) fun included _ _ lasts =>
        .bind (.node found) lasts
  | _ => exact .pure rfl (.bind (.node found) .pure)

theorem Resolving.alloc_union (sound : state.Sound core) {members : List SchemaId}
    (issued : ∀ member ∈ members, member.index < state.arena.size) :
    Resolving core state { state with arena := (state.arena.alloc (.union members)).2 } := by
  refine ⟨le_alloc _ _, sound.alloc issued, rfl, fun id node found => ?_⟩
  rcases Arena.get?_alloc_cases found with earlier | ⟨_, rfl⟩
  · exact .inl earlier
  · exact .inr trivial

theorem projectShape_meets (sound : state.Sound core) (index : String)
    (issued : ∀ type ∈ shape.types, type.index < state.arena.size) :
    Meets (projectShape shape index) state (Resolving core state) fun projected after =>
      after.shapes = state.shapes ∧ Projects core after shape index projected := by
  have stays := Resolving.refl sound
  unfold projectShape
  cases declared : shape.property? index with
  | some property =>
      cases optional : property.optional with
      | false =>
          simp only [optional, Bool.false_eq_true, if_false]
          exact .pure stays ⟨rfl, .required declared optional⟩
      | true =>
          simp only [optional, if_true]
          have asked : Meets (includesUndefined property.type) state (Resolving core state)
              fun included after => state = after ∧
                Lasts (includesUndefined property.type) state included :=
            (includesUndefined_meets property.type state).imp
              (fun _ same => same ▸ stays) (fun _ _ same lasts => ⟨same, lasts⟩)
          refine .bind asked ?_
          rintro included _ - ⟨rfl, lasts⟩
          cases included with
          | true =>
              simp only [if_true]
              exact .pure stays ⟨rfl, .included declared optional lasts⟩
          | false =>
              simp only [Bool.false_eq_true, if_false]
              have members : ∀ member ∈ [property.type, Arena.undefined],
                  member.index < state.arena.size := by
                intro member listed
                rcases List.mem_cons.mp listed with rfl | listed
                · exact issued _ (Shape.type_mem_of_property? declared)
                · rw [List.mem_singleton.mp listed]
                  exact Arena.index_lt_size sound.undefined
              refine .of_ok (alloc_apply _ _) (Resolving.alloc_union sound members) ⟨rfl, ?_⟩
              exact .added declared optional (lasts.later (le_alloc _ _)) sound.core_le
                (Arena.get?_alloc_self _ _)
  | none =>
      cases signed : shape.index with
      | some signature => exact .pure stays ⟨rfl, .signature declared signed⟩
      | none => exact .fail stays

theorem Projects.within {index : String} (projects : Projects core state shape index resolved)
    (within : ∀ type ∈ shape.types, type.Within core bound) :
    resolved.Within core bound ∨
      core ≤ resolved.index ∧
        ∃ type, state.arena.get? resolved = some (.union [type, Arena.undefined]) := by
  cases projects with
  | required declared | included declared =>
      exact .inl (within _ (Shape.type_mem_of_property? declared))
  | added _ _ _ late node => exact .inr ⟨late, _, node⟩
  | signature _ signed => exact .inl (within _ (Shape.type_mem_of_index signed))

theorem projection_sound (sound : state.Sound core) {object projected : SchemaId} {index : String}
    (access : state.arena.get? id = some (.indexedAccess object index))
    (resolves : ResolvesLike state object target (·.isInterfaceLike = true))
    (known : state.shapes.find? target = some shape)
    (projects : Projects core state shape index projected)
    (within : target.index ≤ core ∨ target.index ≤ id.index) :
    ProjectionSound core state id projected := by
  refine ⟨⟨object, index, target, shape, access, resolves, known, projects⟩, ?_⟩
  exact projects.within fun type listed =>
    Within.widen (shape_within sound known type listed) within.symm

theorem project_meets {resolve : SchemaId → Run SchemaId} {flatten : SchemaId → Run Shape}
    (resolves : ResolveMeets core resolve) (flattens : FlattenMeets core flatten) :
    ProjectMeets core (project resolve flatten) := by
  intro id object index state sound access
  have stays := Resolving.refl sound
  have inner : object.index < id.index := sound.ordered id _ access object (by simp [Node.children])
  refine .bind (.read _ stays) ?_
  rintro _ _ - ⟨rfl, rfl⟩
  cases known : state.projections.find? id with
  | some projected => exact .pure stays ⟨known, .refl⟩
  | none =>
      refine .bind (resolves object state sound) ?_
      intro target resolvedState resolving post
      obtain ⟨leads, bounded, early⟩ := post
      refine .bind (.node target resolving) ?_
      rintro node _ - ⟨found, rfl⟩
      cases like : node.isInterfaceLike with
      | false => exact .fail resolving
      | true =>
          have within := bounded.interfaceLike found like
          refine .bind ((flattens target resolvedState resolving.sound).keep
            fun _ => resolving.trans) ?_
          intro shape flatState flattening post
          obtain ⟨grown, flat, late⟩ := post
          refine .bind ((projectShape_meets flattening.sound index
            (shape_issued flattening.sound flat)).keep fun _ => flattening.trans) ?_
          intro projected projectedState projecting post
          obtain ⟨grown', same, projects⟩ := post
          have accounted : ProjectionSound core projectedState id projected :=
            projection_sound projecting.sound (ResolverState.get?_later access projecting.grown)
              (ResolvesLike.later ⟨leads, node, found, like⟩ (le_trans grown.grown grown'.grown))
              (ResolverState.shape_later flat grown'.grown) projects
              (within.imp Nat.le_of_lt fun below => by omega)
          have kept := le_keepProjection projectedState id projected
          refine .of_ok keepProjection_apply ?_ ⟨Memo.find?_settle _ _ _, ?_⟩
          · exact ⟨le_trans projecting.grown kept, projecting.sound.keepProjection fun _ => accounted,
              projecting.distributions, projecting.added⟩
          · refine (early.widen (.inl (Nat.le_of_lt inner))).trans ?_
            refine (late.widen ?_).trans (Bounded.of_shapes_eq same)
            rcases within with core | below
            · exact .inr core
            · exact .inl (by omega)

end Conform.Resolver
