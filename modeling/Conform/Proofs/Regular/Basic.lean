import Mathlib.Logic.Relation
import Conform.Arena.Basic
import Conform.Proofs.Resolver.Sound
import Conform.Proofs.Run.Logic
import Conform.Registry.Address

/-! Regular arenas.  They have no indexed access and no combinator, references lead to symbols
and parents to interfaces, and neither inheritance nor the steps that stay on a value run in
circles.  What a node says about properties, elements and entries may be recursive in any way. -/

namespace Conform

open Relation

namespace Node

/-- Neither an indexed access nor a combinator. -/
def isPlain : Node → Bool
  | .indexedAccess _ _ | .mapped _ _ => false
  | _ => true

def isInterface : Node → Bool
  | .interface _ _ _ => true
  | _ => false

end Node

namespace Arena

variable {arena : Arena} {id next other resolved : SchemaId} {node : Node}

/-- What a reference leads to. -/
def referent? (arena : Arena) (id : SchemaId) : Option SchemaId :=
  match arena.get? id with
  | some (.reference target) =>
      (Address.ofTarget? target).bind fun address => arena.symbol? address.path address.symbol
  | _ => none

def Refers (arena : Arena) (id next : SchemaId) : Prop :=
  arena.referent? id = some next

/-- A node that references lead to, and that is none itself. -/
def Denotes (arena : Arena) (id resolved : SchemaId) : Prop :=
  ReflTransGen arena.Refers id resolved ∧ ∃ node, arena.get? resolved = some node ∧ node.IsConcrete

def isInterface (arena : Arena) (id : SchemaId) : Bool :=
  (arena.get? id).any (·.isInterface)

def parents (arena : Arena) (id : SchemaId) : List SchemaId :=
  match arena.get? id with
  | some (.interface _ _ parents) => parents
  | _ => []

/-- One of the parents of the one interface stands for the other. -/
def Inherits (arena : Arena) (id other : SchemaId) : Prop :=
  ∃ parent ∈ arena.parents id, arena.Denotes parent other

/-- What a check goes on to without a step into the value. -/
def sameValue (arena : Arena) (id : SchemaId) : List SchemaId :=
  match arena.get? id with
  | some (.union members) | some (.intersection members) => members
  | _ => (arena.referent? id).toList

def SameValue (arena : Arena) (id next : SchemaId) : Prop :=
  next ∈ arena.sameValue id

/-- A circle of references is one of the circles on a value. -/
structure Regular (arena : Arena) : Prop where
  plain : ∀ id node, arena.get? id = some node → node.isPlain = true
  refers : ∀ id target, arena.get? id = some (.reference target) → ∃ next, arena.Refers id next
  inherits : ∀ id, ∀ parent ∈ arena.parents id,
    ∃ other, arena.Denotes parent other ∧ arena.isInterface other = true
  lineage : ∀ id, ¬ TransGen arena.Inherits id id
  apart : ∀ id, ¬ TransGen arena.SameValue id id

theorem isInterface_iff : arena.isInterface id = true ↔
    ∃ properties index parents, arena.get? id = some (.interface properties index parents) := by
  constructor
  · intro like
    unfold isInterface at like
    cases found : arena.get? id with
    | none => simp [found] at like
    | some node =>
        cases node with
        | interface properties index parents => exact ⟨properties, index, parents, rfl⟩
        | _ => simp [found, Node.isInterface] at like
  · rintro ⟨properties, index, parents, found⟩
    simp [isInterface, found, Node.isInterface]

theorem refers_le_sameValue (arena : Arena) : arena.Refers ≤ arena.SameValue := by
  intro id next refers
  unfold Refers at refers
  have reference : ∃ target, arena.get? id = some (.reference target) := by
    unfold referent? at refers
    split at refers
    · exact ⟨_, ‹_›⟩
    · cases refers
  obtain ⟨target, found⟩ := reference
  simp [SameValue, Arena.sameValue, found, refers]

theorem referent?_concrete (found : arena.get? id = some node) (concrete : node.IsConcrete) :
    arena.referent? id = none := by
  unfold referent?
  rw [found]
  cases node <;> first | rfl | exact concrete.elim

/-- References lead one way. -/
theorem Denotes.unique (denotes : arena.Denotes id resolved) (same : arena.Denotes id other) :
    resolved = other := by
  have stays {id onward : SchemaId} {node : Node} (found : arena.get? id = some node)
      (concrete : node.IsConcrete) (leads : ReflTransGen arena.Refers id onward) : onward = id := by
    rcases leads.cases_head with rfl | ⟨next, refers, -⟩
    · rfl
    · cases (referent?_concrete found concrete).symm.trans refers
  obtain ⟨leads, node, found, concrete⟩ := denotes
  obtain ⟨leads', node', found', concrete'⟩ := same
  have oneWay : Relator.RightUnique arena.Refers :=
    fun _ _ _ refers refers' => Option.some.inj (refers.symm.trans refers')
  rcases ReflTransGen.total_of_right_unique oneWay leads leads' with onward | back
  · exact (stays found concrete onward).symm
  · exact stays found' concrete' back

/-- Behind a reference it leads on. -/
theorem Denotes.leads_on (denotes : arena.Denotes id resolved) {target : String}
    (found : arena.get? id = some (.reference target)) :
    ∃ next, arena.Refers id next ∧ ReflTransGen arena.Refers next resolved := by
  obtain ⟨leads, node, found', concrete⟩ := denotes
  rcases leads.cases_head with rfl | onward
  · cases found.symm.trans found'
    exact concrete.elim
  · exact onward

theorem Regular.denotes_interface (regular : arena.Regular) {parent : SchemaId}
    (listed : parent ∈ arena.parents id) (denotes : arena.Denotes parent resolved) :
    arena.isInterface resolved = true := by
  obtain ⟨other, same, interface⟩ := regular.inherits id parent listed
  rwa [denotes.unique same]

/-- Follows references for a number of steps. -/
def denoted? (arena : Arena) : Nat → SchemaId → Option SchemaId
  | 0, _ => none
  | steps + 1, id =>
      match arena.get? id with
      | some (.reference _) => (arena.referent? id).bind (denoted? arena steps)
      | some (.indexedAccess _ _) | none => none
      | some _ => some id

/-- What ranks have to show of one node: `rank` falls along the steps that stay on a value,
`line` from an interface to its parents. -/
def RankedAt (arena : Arena) (rank line : SchemaId → Nat) (id : SchemaId) : Prop :=
  (∀ node ∈ arena.get? id, node.isPlain = true ∧
      (node.isLink = true → (arena.referent? id).isSome = true)) ∧
    (∀ next ∈ arena.sameValue id, rank next < rank id) ∧
    ∀ parent ∈ arena.parents id, ∃ other ∈ arena.denoted? arena.size parent,
      arena.isInterface other = true ∧ line other < line id

instance (rank line : SchemaId → Nat) : Decidable (arena.RankedAt rank line id) :=
  inferInstanceAs (Decidable (_ ∧ _ ∧ _))

theorem denoted?_denotes {steps : Nat} (denoted : arena.denoted? steps id = some other) :
    arena.Denotes id other := by
  induction steps generalizing id with
  | zero => cases denoted
  | succ steps ih =>
      cases found : arena.get? id with
      | none => simp [denoted?, found] at denoted
      | some node =>
          cases node with
          | reference target =>
              simp only [denoted?, found] at denoted
              obtain ⟨next, refers, onward⟩ := Option.bind_eq_some_iff.mp denoted
              obtain ⟨leads, concrete⟩ := ih onward
              exact ⟨.head refers leads, concrete⟩
          | indexedAccess object index => simp [denoted?, found] at denoted
          | _ =>
              simp only [denoted?, found, Option.some.injEq] at denoted
              cases denoted
              exact ⟨.refl, _, found, trivial⟩

theorem acyclic_of_rank {relation : SchemaId → SchemaId → Prop} {rank : SchemaId → Nat}
    (falls : ∀ id next, relation id next → rank next < rank id) (id : SchemaId) :
    ¬ TransGen relation id id := by
  intro circle
  have lower {next : SchemaId} (leads : TransGen relation id next) : rank next < rank id := by
    induction leads with
    | single step => exact falls _ _ step
    | tail _ step ih => exact Nat.lt_trans (falls _ _ step) ih
  exact Nat.lt_irrefl _ (lower circle)

theorem regular_of_ranks (rank line : SchemaId → Nat)
    (ranked : ∀ index < arena.size, arena.RankedAt rank line ⟨index⟩) : arena.Regular := by
  have at_node {id : SchemaId} {node : Node} (found : arena.get? id = some node) :
      arena.RankedAt rank line id := ranked id.index (index_lt_size found)
  have descends {id parent : SchemaId} (listed : parent ∈ arena.parents id) :
      ∃ other, arena.Denotes parent other ∧ arena.isInterface other = true ∧ line other < line id := by
    cases found : arena.get? id with
    | none => simp [parents, found] at listed
    | some node =>
        obtain ⟨other, denoted, interface, lower⟩ := (at_node found).2.2 parent listed
        exact ⟨other, denoted?_denotes denoted, interface, lower⟩
  have falls (id next : SchemaId) (same : arena.SameValue id next) : rank next < rank id := by
    cases found : arena.get? id with
    | none => simp [SameValue, sameValue, referent?, found] at same
    | some node => exact (at_node found).2.1 next same
  have ascends (id other : SchemaId) (inherits : arena.Inherits id other) : line other < line id := by
    obtain ⟨parent, listed, denotes⟩ := inherits
    obtain ⟨reached, denotes', -, lower⟩ := descends listed
    rwa [denotes.unique denotes']
  refine
    { plain := fun id node found => ((at_node found).1 node found).1
      refers := fun id target found => ?_
      inherits := fun id parent listed => ?_
      lineage := acyclic_of_rank ascends
      apart := acyclic_of_rank falls }
  · exact Option.isSome_iff_exists.mp (((at_node found).1 _ found).2 rfl)
  · obtain ⟨other, denotes, interface, -⟩ := descends listed
    exact ⟨other, denotes, interface⟩

/-- Different nodes, from each of which the relation leads on to `id`. -/
structure Trail (relation : SchemaId → SchemaId → Prop) (size : Nat) (visited : List SchemaId)
    (id : SchemaId) : Prop where
  distinct : visited.Nodup
  present : ∀ other ∈ visited, other.index < size
  leads : ∀ other ∈ visited, TransGen relation other id

namespace Trail

variable {relation : SchemaId → SchemaId → Prop} {size : Nat} {visited : List SchemaId}

theorem nil : Trail relation size [] id :=
  ⟨List.nodup_nil, nofun, nofun⟩

theorem along (trail : Trail relation size visited id) (onward : ReflTransGen relation id next) :
    Trail relation size visited next :=
  ⟨trail.distinct, trail.present, fun other listed => (trail.leads other listed).trans_left onward⟩

theorem cons (trail : Trail relation size visited id) (unmet : id ∉ visited) (present : id.index < size)
    (step : relation id next) : Trail relation size (id :: visited) next where
  distinct := List.nodup_cons.mpr ⟨unmet, trail.distinct⟩
  present := List.forall_mem_cons.mpr ⟨present, trail.present⟩
  leads := List.forall_mem_cons.mpr ⟨.single step, fun other listed => (trail.leads other listed).tail step⟩

/-- There are fewer nodes behind a new node than there are nodes. -/
theorem length_lt (trail : Trail relation size visited id) (unmet : id ∉ visited)
    (present : id.index < size) : visited.length < size :=
  SchemaId.length_le (List.nodup_cons.mpr ⟨unmet, trail.distinct⟩)
    (List.forall_mem_cons.mpr ⟨present, trail.present⟩)

section

variable (acyclic : ∀ id, ¬ TransGen relation id id) (trail : Trail relation size visited id)

include acyclic trail

theorem fresh : id ∉ visited :=
  fun listed => acyclic id (trail.leads id listed)

theorem push (present : id.index < size) (step : relation id next) :
    Trail relation size (id :: visited) next :=
  trail.cons (trail.fresh acyclic) present step

theorem short (present : id.index < size) : visited.length < size :=
  trail.length_lt (trail.fresh acyclic) present

end

end Trail

end Arena

end Conform
