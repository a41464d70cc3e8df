import Conform.Proofs.Resolver.KnownShapes

/-! Nodes that are apart.  The shape of a node is computed from shapes of the core
and of earlier nodes only, so a later node whose shape is being computed cannot
stand in its way. -/

namespace Conform.Resolver

open Run

variable {core bound : Nat} {α β : Type} {state after : ResolverState} {id target : SchemaId}
  {shape : Shape} {chain other : List SchemaId}

theorem bind_congr {first another : Run α} {next other : α → Run β}
    (begins : first state = another state)
    (goesOn : ∀ found middle, first state = (.ok found, middle) → next found middle = other found middle) :
    (first >>= next) state = (another >>= other) state := by
  cases ran : first state with
  | mk outcome middle =>
      cases outcome with
      | ok found => rw [bind_ok ran, bind_ok (begins ▸ ran), goesOn found middle ran]
      | error error => rw [bind_error ran, bind_error (begins ▸ ran)]

/-- The same run for all nodes before the bound. -/
def SameBelow (core bound : Nat) (flatten another : SchemaId → Run Shape) : Prop :=
  ∀ id state, state.Sound core → id.Within core bound → flatten id state = another id state

section

variable {resolve : SchemaId → Run SchemaId} {flatten another : SchemaId → Run Shape}

theorem shapeBehind_congr (resolves : ResolveMeets core resolve)
    (same : SameBelow core bound flatten another) (sound : state.Sound core) (reject : Kind → SchemaError)
    (leadsWithin : LeadsWithin core bound state target) : shapeBehind resolve flatten reject target state =
      shapeBehind resolve another reject target state := by
  refine bind_congr rfl fun resolved middle ran => ?_
  have meets := resolves target state sound
  obtain ⟨-, leads, -⟩ := meets.answers resolved middle ran
  have resolving := meets.always_ok ran
  refine bind_congr rfl fun node _ reads => ?_
  obtain ⟨found, rfl⟩ := of_node_ok reads
  cases like : node.isInterfaceLike with
  | false => rfl
  | true =>
      simp only [if_true]
      exact same resolved middle resolving.sound (leadsWithin _ _ _ resolving.grown leads found like)

theorem flattenTarget_congr (resolves : ResolveMeets core resolve)
    (same : SameBelow core bound flatten another) (sound : state.Sound core) (combinator : Combinator)
    (early : target.index < bound) : flattenTarget resolve flatten combinator target state =
      flattenTarget resolve another combinator target state :=
  shapeBehind_congr resolves same sound (.invalidCombinatorTarget combinator.kind) (.of_early early state)

theorem inheritParents_congr (resolves : ResolveMeets core resolve)
    (flattens : FlattenMeets core flatten) (same : SameBelow core bound flatten another)
    (sound : state.Sound core) (parents : List SchemaId)
    (early : ∀ parent ∈ parents, parent.index < bound) :
    inheritParents resolve flatten shape parents state =
      inheritParents resolve another shape parents state := by
  induction parents generalizing shape state with
  | nil => rfl
  | cons parent rest ih =>
      refine bind_congr rfl fun resolved middle ran => ?_
      have meets := resolves parent state sound
      obtain ⟨-, leads, -⟩ := meets.answers resolved middle ran
      have middle_sound := (meets.always_ok ran).sound
      refine bind_congr rfl fun node _ reads => ?_
      obtain ⟨found, rfl⟩ := of_node_ok reads
      cases node with
      | interface properties index parents =>
          have within : resolved.Within core bound :=
            Within.widen (leads.interfaceLike found rfl) (.inl (early parent (List.mem_cons_self ..)))
          refine bind_congr (same resolved middle middle_sound within) fun inherited last flat => ?_
          exact ih ((flattens resolved middle middle_sound).always_ok flat).sound
            fun other listed => early other (List.mem_cons_of_mem _ listed)
      | _ => rfl

theorem combine_congr (same : SameBelow core bound flatten another) (sound : state.Sound core)
    (combinator : Combinator) (early : ∀ patch ∈ combinator.children, patch.index < bound) :
    combine flatten shape combinator state = combine another shape combinator state := by
  cases combinator with
  | overwrite patch =>
      exact bind_congr (same patch state sound (.inr (early patch (List.mem_singleton_self _))))
        fun _ _ _ => rfl
  | _ => rfl

theorem flattenNode_congr (resolves : ResolveMeets core resolve)
    (flattens : FlattenMeets core flatten) (same : SameBelow core id.index flatten another)
    (sound : state.Sound core) :
    flattenNode resolve flatten id state = flattenNode resolve another id state := by
  refine bind_congr rfl fun node _ reads => ?_
  obtain ⟨found, rfl⟩ := of_node_ok reads
  have earlier := sound.ordered id node found
  cases node with
  | interface properties index parents =>
      exact inheritParents_congr resolves flattens same sound parents fun parent listed =>
        earlier parent (by simp [Node.children, listed])
  | mapped combinator target =>
      have below : target.index < id.index := earlier target (List.mem_cons_self ..)
      refine bind_congr (flattenTarget_congr resolves same sound combinator below) fun base middle ran => ?_
      have resolving := (shapeBehind_meets resolves flattens sound (.invalidCombinatorTarget combinator.kind)
        (Nat.le_of_lt below) (.of_early below state)).always_ok ran
      exact combine_congr same resolving.sound combinator fun patch listed =>
        earlier patch (List.mem_cons_of_mem _ listed)
  | reference _ | indexedAccess _ _ =>
      exact shapeBehind_congr resolves same sound .notInterfaceLike (.of_link found fun closed => closed)
  | _ => rfl

end

/-- Chains that hold the same of the nodes before the bound. -/
def Apart (core bound : Nat) (chain other : List SchemaId) : Prop :=
  ∀ id : SchemaId, id.Within core bound → (id ∈ chain ↔ id ∈ other)

theorem Apart.nil (above : ∀ id ∈ chain, core ≤ id.index ∧ bound ≤ id.index) :
    Apart core bound chain [] := by
  intro id within
  refine ⟨fun listed => ?_, fun listed => (List.not_mem_nil listed).elim⟩
  obtain ⟨late, behind⟩ := above id listed
  rcases within with early | early <;> omega

theorem Apart.cons (apart : Apart core (id.index + 1) chain other) {inner : SchemaId}
    (within : inner.Within core id.index) :
    Apart core (inner.index + 1) (id :: chain) (id :: other) := by
  intro key early
  have earlier : key.Within core (id.index + 1) := by
    rcases early with early | early
    · exact .inl early
    · rcases within with within | within
      · exact .inl (by omega)
      · exact .inr (by omega)
  simp only [List.mem_cons, apart key earlier]

theorem unlessKnown_congr (apart : Apart core (id.index + 1) chain other) {compute another : Run Shape}
    (same : compute state = another state) :
    unlessKnown chain id compute state = unlessKnown other id another state := by
  have met : chain.contains id = other.contains id := by
    rw [Bool.eq_iff_iff]
    simp only [List.contains_iff_mem, apart id (.inr (Nat.lt_succ_self _))]
  simp only [unlessKnown, bind_ok (read_apply _), met]
  cases state.shapes.find? id with
  | some shape => rfl
  | none =>
      by_cases listed : other.contains id = true
      · simp only [listed, if_true]
      · simp only [listed]
        exact same

/-- Only what a chain holds of the core and of the nodes up to `id` matters. -/
theorem flattenWithin_apart (limit steps : Nat) (apart : Apart core (id.index + 1) chain other)
    (sound : state.Sound core) :
    flattenWithin limit steps chain id state = flattenWithin limit steps other id state := by
  -- The chains grow by the same node, and only earlier nodes are entered from it.
  induction steps generalizing chain other id state with
  | zero => exact unlessKnown_congr apart rfl
  | succ steps ih =>
      have same : SameBelow core id.index (flattenWithin limit steps (id :: chain))
          (flattenWithin limit steps (id :: other)) :=
        fun inner state sound within => ih (apart.cons within) sound
      exact unlessKnown_congr apart (bind_congr (flattenNode_congr (resolveWithin_meets limit steps)
        (flattenWithin_meets limit steps _) same sound) fun _ _ _ => rfl)

end Conform.Resolver
