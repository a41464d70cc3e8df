import Conform.Proofs.Distribution.Stacked

/-! Shapes of combinators, read off what is remembered.  A combinator with a known shape has
a target with a known shape, so a stack of combinators can be followed down to its target. -/

namespace Conform.Resolver

open Run

variable {core : Nat} {state : ResolverState} {id inner resolved target : SchemaId}
  {combinator : Combinator} {combinators : List Combinator} {shape base : Shape}

/-- What a combinator makes of a shape, if the shape of its patch is known. -/
def combine? (state : ResolverState) (combinator : Combinator) (base : Shape) : Option Shape :=
  match combinator with
  | .pick keys => (base.pick keys).toOption
  | .optional => some base.allOptional
  | .without keys => some (base.without keys)
  | .overwrite patch => (state.shapes.find? patch).map base.overwrite

/-- What combinators make of a shape, the outermost one first. -/
def combineAll? (state : ResolverState) (base : Shape) : List Combinator → Option Shape
  | [] => some base
  | combinator :: rest => (combineAll? state base rest).bind (combine? state combinator)

theorem combine?_pick {keys : List String} :
    combine? state (.pick keys) base = some shape ↔ base.pick keys = .ok shape := by
  cases picked : base.pick keys <;> simp [combine?, picked, Except.toOption]

theorem combine?_overwrite {patch : SchemaId} : combine? state (.overwrite patch) base = some shape ↔
    ∃ top, state.shapes.find? patch = some top ∧ base.overwrite top = shape := by
  simp [combine?]

/-- A schema with a known shape stands for a node with the same shape. -/
theorem known_resolved (sound : state.Sound core) (known : state.shapes.find? id = some shape) :
    ∃ resolved, Resolves state id resolved ∧ state.shapes.find? resolved = some shape := by
  obtain ⟨older, entry, accounted⟩ := shape_sound sound known
  cases accounted.source sound with
  | interface node => exact ⟨id, resolves_concrete node trivial, known⟩
  | mapped node => exact ⟨id, resolves_concrete node trivial, known⟩
  | @follows _ _ target _ _ resolves _ _ earlier =>
      have suffix := (List.suffix_cons _ _).trans entry
      exact ⟨target, resolves, shape_of_suffix sound suffix earlier⟩

/-- A resolved node with a known shape declares it. -/
theorem declares_of_known (sound : state.Sound core) (resolves : Resolves state target id)
    (known : state.shapes.find? id = some shape) : Declares state id shape := by
  obtain ⟨_, _, accounted⟩ := shape_sound sound known
  cases accounted.source sound with
  | interface node | mapped node => exact ⟨undistributed_of_known sound known _ node rfl, known⟩
  | follows found link => exact (link (resolves.target_concrete sound found)).elim

theorem mapped_known (sound : state.Sound core)
    (node : state.arena.get? id = some (.mapped combinator inner))
    (known : state.shapes.find? id = some shape) :
    ∃ resolved base, Resolves state inner resolved ∧ state.shapes.find? resolved = some base ∧
      combine? state combinator base = some shape := by
  obtain ⟨older, entry, accounted⟩ := shape_sound sound known
  have suffix := (List.suffix_cons _ _).trans entry
  obtain ⟨resolved, _, base, resolves, _, _, earlier, combines⟩ := accounted.mapped sound node
  have combined : combine? state combinator base = some shape := by
    cases combinator with
    | pick keys =>
        apply combine?_pick.mpr
        cases picked : base.pick keys with
        | ok picked_shape =>
            simp only [combine, Yields, picked, ofExcept_apply] at combines
            cases combines
            rfl
        | error error =>
            simp only [combine, Yields, picked, ofExcept_apply] at combines
            cases combines
    | optional | without keys =>
        cases combines
        rfl
    | overwrite patch =>
        obtain ⟨top, earlier, made⟩ := combine_overwrite_yields sound combines
        exact combine?_overwrite.mpr ⟨top, shape_of_suffix sound suffix earlier, made⟩
  exact ⟨resolved, base, resolves, shape_of_suffix sound suffix earlier, combined⟩

theorem Stacked.resolved_known {least : Nat} (stacked : Stacked least state target combinators id)
    (sound : state.Sound core) (resolves : Resolves state id resolved)
    (known : state.shapes.find? resolved = some shape) :
    ∃ bottom base, Resolves state target bottom ∧ state.shapes.find? bottom = some base ∧
      combineAll? state base combinators = some shape := by
  induction stacked generalizing resolved shape with
  | base => exact ⟨resolved, shape, resolves, known, rfl⟩
  | apply node _ _ ih =>
      cases resolves.concrete node trivial
      obtain ⟨behind, base, resolves', known', combined⟩ := mapped_known sound node known
      obtain ⟨bottom, start, reached, settled, made⟩ := ih resolves' known'
      exact ⟨bottom, start, reached, settled, by simp [combineAll?, made, combined]⟩

/-- A stack of combinators has the shape that they make of that of the target. -/
theorem Stacked.known {least : Nat} (stacked : Stacked least state target combinators id)
    (sound : state.Sound core) (known : state.shapes.find? id = some shape) :
    ∃ bottom base, Resolves state target bottom ∧ state.shapes.find? bottom = some base ∧
      combineAll? state base combinators = some shape := by
  obtain ⟨resolved, resolves, known'⟩ := known_resolved sound known
  exact stacked.resolved_known sound resolves known'

/-- What a stack of combinators makes of the known shape of its target. -/
theorem Stacked.combined {least : Nat} (stacked : Stacked least state target combinators id)
    (sound : state.Sound core) (known : state.shapes.find? id = some shape)
    (bottom_known : state.shapes.find? target = some base) :
    combineAll? state base combinators = some shape := by
  obtain ⟨bottom, start, resolves, settled, made⟩ := stacked.known sound known
  obtain ⟨resolved, resolves', settled'⟩ := known_resolved sound bottom_known
  cases resolves.unique resolves'
  cases settled.symm.trans settled'
  exact made

end Conform.Resolver
