import Conform.Proofs.Agreement.Checking

/-! A state and one that has grown from it, side by side.  Every identity is its
own counterpart. -/

namespace Conform

namespace Agreement

open Run Resolver

variable {core : Nat} {left right : ResolverState}

/-- Every node of the left state stands for itself. -/
def World.same (left right : ResolverState) : World :=
  ⟨left, right, fun id other => id = other ∧ id.index < left.arena.size⟩

theorem World.Linked.same (sound : left.Sound core) (sound' : right.Sound core)
    (grown : left ≤ right) : (World.same left right).Linked core := by
  refine
    { left := sound
      right := sound'
      symbols := Arena.symbols_eq (ResolverState.arena_le grown)
      early := fun id early => ⟨rfl, Nat.lt_of_lt_of_le early sound.core_le⟩
      total := fun id present => ⟨id, rfl, present⟩
      nodes := ?_
      functional := ?_
      fibre := fun id other pair => .inl pair.1
      shapes := ?_
      projections := ?_
      distributions := ?_
      foreign := ?_ }
  · rintro id _ ⟨rfl, present⟩
    obtain ⟨node, found⟩ := left.arena.exists_get? id present
    exact ⟨node, node, found, ResolverState.get?_later found grown,
      .refl fun child inside => ⟨rfl, children_issued sound found child inside⟩⟩
  · rintro id _ _ ⟨rfl, -⟩ ⟨rfl, -⟩
    rfl
  · rintro id _ shape ⟨rfl, -⟩ known
    exact ⟨shape, ResolverState.shape_later known grown⟩
  · rintro id _ projected ⟨rfl, present⟩ known
    refine ⟨projected, ResolverState.projection_later known grown, rfl, ?_⟩
    rcases (sound.projections id projected known).within with within | ⟨-, type, node⟩
    · exact Within.index_lt within sound.core_le (Nat.le_of_lt present)
    · exact Arena.index_lt_size node
  · rintro id _ union ⟨rfl, -⟩ known
    exact ⟨union, ResolverState.distribution_later known grown, rfl,
      distribution_present sound known⟩
  · rintro id _ fields ⟨rfl, -⟩ known
    exact ResolverState.foreign_later known grown

/-- A check comes out the same in a state that has grown, unless it reaches the
limit in the smaller one. -/
theorem check_outcome {options : Options} {value : Value} {id : SchemaId} (sound : left.Sound core)
    (sound' : right.Sound core) (grown : left ≤ right) (present : id.index < left.arena.size) :
    (∃ limit, (Validator.check options value id left).1 = .error (.depthLimitExceeded limit)) ∨
      (Validator.check options value id left).1 = (Validator.check options value id right).1 :=
  (check_concurs (.same sound sound' grown) ⟨rfl, present⟩).outcome

/-- In a state that has grown a node is distributed as before, or as before it is not. -/
theorem distribute_later {limit steps : Nat} {id : SchemaId} {after : ResolverState} {kept : Option SchemaId}
    (sound : left.Sound core) (sound' : right.Sound core) (grown : left ≤ right)
    (present : id.index < left.arena.size) (ran : distributeWithin limit steps id left = (.ok kept, after)) :
    ∃ otherKept last, distributeWithin limit steps id right = (.ok otherKept, last) ∧
      otherKept.isSome = kept.isSome := by
  have agrees : Agrees core (steps < steps ∨ limit < limit) (.same left right) _ _ _ :=
    distributeWithin_agrees (.same sound sound' grown) ⟨rfl, present⟩
  obtain ⟨otherKept, next, ran', -, -, -, related⟩ := agrees.of_left (by omega) ran
  refine ⟨otherKept, next.right, ran', ?_⟩
  cases related <;> rfl

/-- A schema has the same shape in a state that has grown, or fails alike, unless it reaches the
limit in the smaller one. -/
theorem flatten_outcome {limit steps : Nat} {id : SchemaId} (sound : left.Sound core)
    (sound' : right.Sound core) (grown : left ≤ right) (present : id.index < left.arena.size) :
    (∃ limited, (flattenWithin limit steps [] id left).1 = .error (.depthLimitExceeded limited)) ∨
      (flattenWithin limit steps [] id left).1 = (flattenWithin limit steps [] id right).1 := by
  have agrees : Agrees core (steps < steps) (.same left right) _ _ _ :=
    flattenWithin_agrees limit steps limit steps _ id id (.same sound sound' grown) ⟨rfl, present⟩
  cases agrees with
  | limited ran => exact .inl ⟨_, congrArg Prod.fst ran⟩
  | excused fewer _ => exact (Nat.lt_irrefl _ fewer).elim
  | failed ran ran' => exact .inr ((congrArg Prod.fst ran).trans (congrArg Prod.fst ran').symm)
  | @done shape other next ran ran' extends_ linked related =>
      have meets : Meets (flattenWithin limit steps [] id) left _ _ :=
        flattenWithin_meets limit steps [] id left sound
      have within := shape_within (meets.always_ok ran).sound (meets.answers _ _ ran).1
      -- A shape has only types that were there before, and these are their own counterparts.
      have same : other = shape := by
        apply related.eq_of
        intro type listed twin paired
        have issued := Within.index_lt (within type listed) sound.core_le (Nat.le_of_lt present)
        exact linked.functional _ _ _ paired (extends_.ids _ _ ⟨rfl, issued⟩)
      cases same
      exact .inr ((congrArg Prod.fst ran).trans (congrArg Prod.fst ran').symm)

/-- In a state that has grown a node has the shape that it had before. -/
theorem flatten_later {limit steps : Nat} {id : SchemaId} {after : ResolverState} {shape : Shape}
    (sound : left.Sound core) (sound' : right.Sound core) (grown : left ≤ right)
    (present : id.index < left.arena.size) (ran : flattenWithin limit steps [] id left = (.ok shape, after)) :
    (flattenWithin limit steps [] id right).1 = .ok shape := by
  rcases flatten_outcome sound sound' grown present with ⟨limited, stuck⟩ | same
  · cases (congrArg Prod.fst ran).symm.trans stuck
  · exact same.symm.trans (congrArg Prod.fst ran)

end Agreement

end Conform
