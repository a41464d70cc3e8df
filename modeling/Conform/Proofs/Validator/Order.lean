import Conform.Proofs.Arena.Faithful
import Conform.Proofs.Validator.Finding
import Conform.Proofs.Validator.Reachable

/-! The order of the arena over whole histories of calls.  A node mentions earlier nodes
only, whether it was interned, added as it is, or added in the middle of a resolution;
what the memos and the symbols mention is there.  So the nodes form no cycle, and no
call runs into an identity that stands for nothing. -/

namespace Conform

open Resolver

namespace Arena

/-- The node of the one identity mentions the other.  A reference mentions none: it names
a symbol. -/
def Mentions (arena : Arena) (id child : SchemaId) : Prop :=
  ∃ node, arena.get? id = some node ∧ child ∈ node.children

/-- The identities of all symbols. -/
def symbolIds (arena : Arena) : List SchemaId :=
  arena.symbols.flatMap (·.2.map (·.2))

/-- The answer is an identity that was not there at the start. -/
def Fresh (run : StateM (Array Node) SchemaId) : Prop :=
  ∀ nodes, Ordered nodes → nodes.size ≤ (run nodes).1.index

theorem Fresh.push (node : Node) : Fresh (push node) :=
  fun _ _ => Nat.le_refl _

theorem Fresh.bind {α : Type} {first : StateM (Array Node) α} {mentions : α → List SchemaId}
    {next : α → StateM (Array Node) SchemaId} (part : Issues [] first mentions)
    (rest : ∀ answer, Fresh (next answer)) : Fresh (first >>= next) := by
  intro nodes ordered
  obtain ⟨adds, -⟩ := part nodes ordered fun _ listed => nomatch listed
  exact Nat.le_trans adds.size_le (rest _ _ adds.ordered)

theorem pushSchema_fresh (schema : Schema) : Fresh (pushSchema schema) := by
  cases schema with
  | array inner | indexedAccess inner _ | pick inner _ | optional inner | without inner _ =>
      exact .bind (pushSchema_issues inner []) fun _ => .push _
  | tuple elements _ => exact .bind (pushSchemas_issues elements []) fun _ => .push _
  | interface properties index parents =>
      exact .bind (pushProperties_issues properties []) fun _ =>
        .bind (pushIndex_issues index []) fun _ =>
          .bind (pushBranches_issues parents []) fun _ => .push _
  | union members | intersection members =>
      exact .bind (pushBranches_issues members []) fun _ => .push _
  | overwrite target patch =>
      exact .bind (pushSchema_issues target []) fun _ =>
        .bind (pushSchema_issues patch []) fun _ => .push _
  | _ => exact .push _

end Arena

/-- Nodes mention earlier nodes, and all that symbols and memos mention is there. -/
structure ResolverState.InOrder (state : ResolverState) : Prop where
  nodes : ∀ id child, state.arena.Mentions id child → child.index < id.index
  symbols : Present state state.arena.symbolIds
  shapes : ∀ id shape, state.shapes.find? id = some shape → Present state (id :: shape.types)
  projections : ∀ id projected, state.projections.find? id = some projected →
    Present state [id, projected]
  distributions : ∀ id union, state.distributions.find? id = some union → Present state [id, union]

variable {core : Nat} {state : ResolverState}

theorem ResolverState.Sound.inOrder (sound : state.Sound core)
    (symbols : Present state state.arena.symbolIds) : state.InOrder where
  nodes := fun id child ⟨node, found, listed⟩ => sound.ordered id node found child listed
  symbols := symbols
  shapes := fun id shape known =>
    List.forall_mem_cons.mpr ⟨shape_present sound known, shape_issued sound known⟩
  projections := fun id projected known => by
    obtain ⟨object, index, target, shape, access, -⟩ := (sound.projections id projected known).computed
    exact List.forall_mem_cons.mpr
      ⟨Arena.index_lt_size access, List.forall_mem_singleton.mpr (projection_present sound known)⟩
  distributions := fun id union known => by
    have present := distribution_present sound known
    exact List.forall_mem_cons.mpr ⟨Nat.lt_trans (sound.distributions id union known).behind present,
      List.forall_mem_singleton.mpr present⟩

/-- What is mentioned, however deep, is earlier. -/
theorem ResolverState.InOrder.earlier (order : state.InOrder) {id child : SchemaId}
    (mentions : Relation.TransGen state.arena.Mentions id child) : child.index < id.index := by
  induction mentions with
  | single step => exact order.nodes _ _ step
  | tail _ step ih => exact Nat.lt_trans (order.nodes _ _ step) ih

namespace Validator

variable {registry : Registry} {options : Options} {validator later : Validator} {id : SchemaId}

/-- No call with the identity answers that an identity is unknown. -/
structure Knows (validator : Validator) (id : SchemaId) : Prop where
  resolve : ∀ other, (validator.resolve id).1 ≠ .error (.unknownId other)
  isInterfaceLike : ∀ other, (validator.isInterfaceLike id).1 ≠ .error (.unknownId other)
  flatten : ∀ other, (validator.flatten id).1 ≠ .error (.unknownId other)
  distribute : ∀ other, (validator.distribute id).1 ≠ .error (.unknownId other)
  foreignFields : ∀ other, (validator.foreignFields id).1 ≠ .error (.unknownId other)
  validateById : ∀ value other, (validator.validateById value id).1 ≠ .error (.unknownId other)

theorem Issued.knows (issued : validator.Issued id) (sound : validator.state.Sound core) :
    validator.Knows id := by
  have present : Present validator.state [id] := List.forall_mem_singleton.mpr issued
  exact {
    resolve := (resolveWithin_locates _ _ id).finds _ sound present
    isInterfaceLike := isInterfaceLike_finds _ id _ sound present
    flatten := (flattenWithin_locates _ _ [] id).finds _ sound present
    distribute := (distributeWithin_locates _ _ id).finds _ sound present
    foreignFields := foreignFields_finds _ id _ sound present
    validateById := fun value => check_finds _ value id _ sound present }

theorem Reachable.inOrder (reachable : Reachable registry options validator) :
    validator.state.InOrder := by
  refine reachable.sound.inOrder fun id listed => ?_
  have grown := ResolverState.arena_le reachable.advances.grown
  rw [Arena.symbolIds, Arena.symbols_eq grown] at listed
  exact Nat.lt_of_lt_of_le ((Arena.ofRegistry_adds registry).2 id listed) (Arena.size_mono grown)

/-- A schema that is interned gets a new identity, which stands for it. -/
theorem intern_issues (sound : validator.state.Sound core) (schema : Schema) :
    ¬ validator.Issued (validator.intern schema).1 ∧
      (validator.intern schema).2.Issued (validator.intern schema).1 ∧
      (validator.intern schema).2.state.arena.read? (validator.intern schema).1 = some schema.unnumbered := by
  have fresh := Arena.pushSchema_fresh schema _ sound.ordered_nodes
  have last := validator.state.arena.intern_last schema
  exact ⟨Nat.not_lt.mpr fresh, Nat.lt_of_succ_le last.le, validator.state.arena.read?_intern schema⟩

/-- A node that is added gets a new identity, which stands for it. -/
theorem alloc_issues (validator : Validator) (node : Node) :
    ¬ validator.Issued (validator.alloc node).1 ∧
      (validator.alloc node).2.Issued (validator.alloc node).1 ∧
      (validator.alloc node).2.state.arena.get? (validator.alloc node).1 = some node := by
  have found := validator.state.arena.get?_alloc_self node
  exact ⟨Nat.lt_irrefl _, Arena.index_lt_size found, found⟩

/-- Whatever calls there have been, the arena is in order and an issued identity is known to every
call.  What comes later changes no node.  A schema or node that is added gets an identity that was
not in use, and the identity stands for it. -/
theorem arena_stays_in_order (reachable : Reachable registry options validator) :
    validator.state.InOrder ∧
      (∀ id, ¬ Relation.TransGen validator.state.arena.Mentions id id) ∧
      (∀ id, validator.Issued id → validator.Knows id) ∧
      (∀ later, validator.Leads later → ∀ id node,
        validator.state.arena.get? id = some node → later.state.arena.get? id = some node) ∧
      (∀ schema, ¬ validator.Issued (validator.intern schema).1 ∧
        (validator.intern schema).2.Issued (validator.intern schema).1 ∧
        (validator.intern schema).2.state.arena.read? (validator.intern schema).1 =
          some schema.unnumbered) ∧
      ∀ node, ¬ validator.Issued (validator.alloc node).1 ∧
        (validator.alloc node).2.Issued (validator.alloc node).1 ∧
        (validator.alloc node).2.state.arena.get? (validator.alloc node).1 = some node := by
  have sound := reachable.sound
  have order := reachable.inOrder
  refine ⟨order, fun id cycle => Nat.lt_irrefl _ (order.earlier cycle), fun id issued => issued.knows sound,
    fun later leads id node found => ?_, intern_issues sound, validator.alloc_issues⟩
  exact ResolverState.get?_later found (leads.advances sound).grown

/-- A union of an indexed access to an optional property and of a combinator over a union
with a member that is no interface. -/
def mixed : Validator :=
  ((Validator.ofRegistry .empty { maxDepth := 8 }).intern (.union (Branch.numbered
    [.indexedAccess (.interface [⟨0, "a", true, .string⟩] none []) "a",
      .optional (.union (Branch.numbered [.interface [] none [], .string]))]))).2

/-- After a check, which has added the types that both stand for and has then failed. -/
def interrupted : Validator :=
  (mixed.validateById (.object .empty) ⟨9⟩).2

theorem interrupted_reachable : Reachable .empty { maxDepth := 8 } interrupted :=
  have reachable : Reachable .empty { maxDepth := 8 } mixed := .single (.intern _ _)
  reachable.step (.validateById mixed (.object .empty) ⟨9⟩)

theorem arena_stays_in_order_interrupted :
    Reachable .empty { maxDepth := 8 } interrupted ∧
      interrupted.state.projections.find? ⟨4⟩ = some ⟨10⟩ ∧
      interrupted.state.distributions.find? ⟨8⟩ = some ⟨13⟩ ∧
      interrupted.state.InOrder ∧ interrupted.Knows ⟨12⟩ := by
  obtain ⟨order, -, known, -⟩ := arena_stays_in_order interrupted_reachable
  exact ⟨interrupted_reachable, by decide +kernel, by decide +kernel, order,
    known ⟨12⟩ (by decide +kernel)⟩

end Validator

end Conform
