import Mathlib.Data.List.Forall2
import Mathlib.Data.List.Perm.Subperm
import Mathlib.Data.List.Range
import Mathlib.Logic.Relation
import Conform.Proofs.Run.Logic
import Conform.Proofs.Shape.Names
import Conform.Resolver.Foreign

/-! Sound states.  Every entry of a memo is accounted for by the nodes and by
other entries: computing it again, with what is remembered, gives it again.
`core` bounds the identities that references lead to.  All other identities
lead to earlier ones only, so a chain that meets a node again meets one of the
core. -/

namespace Conform

namespace Combinator

/-- The identities in a combinator, apart from its target. -/
def children : Combinator → List SchemaId
  | .overwrite patch => [patch]
  | _ => []

end Combinator

namespace Node

/-- The identities in a node. -/
def children : Node → List SchemaId
  | .array element => [element]
  | .tuple elements _ => elements
  | .interface properties index parents =>
      properties.map (·.type) ++ (index.map (·.type)).toList ++ parents
  | .indexedAccess object _ => [object]
  | .union members | .intersection members => members
  | .mapped combinator target => target :: combinator.children
  | _ => []

/-- A chain of references and indexed accesses ends at such a node. -/
def IsConcrete : Node → Prop
  | .reference _ | .indexedAccess _ _ => False
  | _ => True

/-- Whether the node stands for another one. -/
def isLink : Node → Bool
  | .reference _ | .indexedAccess _ _ => true
  | _ => false

theorem isLink_of_not_concrete {node : Node} (link : ¬ node.IsConcrete) : node.isLink = true := by
  cases node <;> first | rfl | exact (link trivial).elim

theorem concrete_of_like {node : Node} (like : node.isInterfaceLike = true) : node.IsConcrete := by
  cases node <;> first | exact trivial | cases like

def IsUnion : Node → Prop
  | .union _ => True
  | _ => False

def IsMapped : Node → Prop
  | .mapped _ _ => True
  | _ => False

end Node

namespace SchemaId

/-- In the core, or earlier than a bound. -/
def Within (core bound : Nat) (id : SchemaId) : Prop :=
  id.index < core ∨ id.index < bound

/-- Different identities below a bound are no more than the bound. -/
theorem length_le {size : Nat} {ids : List SchemaId} (distinct : ids.Nodup)
    (below : ∀ id ∈ ids, id.index < size) : ids.length ≤ size := by
  have indices : (ids.map (·.index)).Nodup := distinct.map fun left right same => by
    cases left
    cases right
    exact congrArg _ same
  have within : ids.map (·.index) ⊆ List.range size := by
    intro index listed
    obtain ⟨id, inside, rfl⟩ := List.mem_map.mp listed
    exact List.mem_range.mpr (below id inside)
  simpa using (indices.subperm within).length_le

end SchemaId

namespace Resolver

open Run

/-- Looks a shape up among the given entries. -/
def recallShape (entries : List (SchemaId × Shape)) (id : SchemaId) : Run Shape :=
  match entries.lookup id with
  | some shape => succeed shape
  | none => fail (.depthLimitExceeded 0)

/-- A single step is enough where the projections on the way are remembered. -/
def Resolves (state : ResolverState) (id resolved : SchemaId) : Prop :=
  Lasts (resolveWithin 0 1 id) state resolved

def ResolvesLike (state : ResolverState) (id resolved : SchemaId) (kind : Node → Prop) : Prop :=
  Resolves state id resolved ∧ ∃ node, state.arena.get? resolved = some node ∧ kind node

/-- The way down a chain of combinators, of at most `budget` of them. -/
def Walks (state : ResolverState) (budget : Nat) (chain : CombinatorChain) (target : SchemaId)
    (found : Option (CombinatorChain × List SchemaId)) : Prop :=
  Lasts (walkChain 0 (resolveWithin 0 1) budget chain target) state found

/-- No union stands for the node: it is an interface, or a combinator whose
chain ends in one. -/
inductive Undistributed (state : ResolverState) (id : SchemaId) : Prop
  | interface {properties : List Property} {index : Option IndexSignature}
      {parents : List SchemaId}
      (node : state.arena.get? id = some (.interface properties index parents))
  | mapped {combinator : Combinator} {target : SchemaId} {budget : Nat}
      (node : state.arena.get? id = some (.mapped combinator target))
      (walks : Walks state budget ⟨combinator, []⟩ target none)

/-- What an indexed access into a shape stands for. -/
inductive Projects (core : Nat) (state : ResolverState) (shape : Shape) (index : String) :
    SchemaId → Prop
  | required {property : Property} (declared : shape.property? index = some property)
      (required : property.optional = false) : Projects core state shape index property.type
  | included {property : Property} (declared : shape.property? index = some property)
      (optional : property.optional = true)
      (included : Lasts (includesUndefined property.type) state true) :
      Projects core state shape index property.type
  | added {property : Property} {union : SchemaId} (declared : shape.property? index = some property)
      (optional : property.optional = true)
      (missing : Lasts (includesUndefined property.type) state false)
      (late : core ≤ union.index)
      (node : state.arena.get? union = some (.union [property.type, Arena.undefined])) :
      Projects core state shape index union
  | signature {signature : IndexSignature} (undeclared : shape.property? index = none)
      (signed : shape.index = some signature) : Projects core state shape index signature.type

/-- Combinators applied to a member, the first one innermost, by nodes that
distribution has added behind the origin. -/
inductive Tower (core : Nat) (state : ResolverState) (origin : SchemaId) :
    List Combinator → SchemaId → SchemaId → Prop
  | base {member : SchemaId} : Tower core state origin [] member member
  | apply {combinator : Combinator} {outer : List Combinator} {member applied top : SchemaId}
      (node : state.arena.get? applied = some (.mapped combinator member))
      (late : core ≤ applied.index) (behind : origin.index < applied.index)
      (rest : Tower core state origin outer applied top) :
      Tower core state origin (combinator :: outer) member top

/-- One step of the search for foreign fields, between concrete nodes. -/
inductive Branches (state : ResolverState) : SchemaId → SchemaId → Prop
  | union {id member resolved : SchemaId} {members : List SchemaId}
      (node : state.arena.get? id = some (.union members)) (listed : member ∈ members)
      (resolves : Resolves state member resolved) : Branches state id resolved
  | intersection {id member resolved : SchemaId} {members : List SchemaId}
      (node : state.arena.get? id = some (.intersection members)) (listed : member ∈ members)
      (resolves : Resolves state member resolved) : Branches state id resolved
  | distributed {id union : SchemaId} (known : state.distributions.find? id = some union) :
      Branches state id union

/-- A branch that declares fields of its own. -/
structure Declares (state : ResolverState) (id : SchemaId) (shape : Shape) : Prop where
  undistributed : Undistributed state id
  shape : state.shapes.find? id = some shape

/-- A branch of which it is known what it declares, or what it is distributed to. -/
def Decided (state : ResolverState) (id : SchemaId) : Prop :=
  ∃ node, state.arena.get? id = some node ∧ (node.isInterfaceLike = true →
    (∃ union, state.distributions.find? id = some union) ∨ ∃ shape, Declares state id shape)

/-- The node and everything one step behind it is known, and visited. -/
def Expanded (state : ResolverState) (visited : List SchemaId) (id : SchemaId) : Prop :=
  ∃ node, state.arena.get? id = some node ∧
    match node with
    | .union members | .intersection members =>
        ∀ member ∈ members, ∃ resolved ∈ visited, Resolves state member resolved
    | .interface _ _ _ | .mapped _ _ =>
        (∃ union ∈ visited, state.distributions.find? id = some union) ∨
          ∃ shape, Declares state id shape
    | _ => True

/-- The fields are those that the visited branches declare. -/
structure Gathers (state : ResolverState) (visited : List SchemaId) (fields : ForeignFields) :
    Prop where
  sorted : fields.names.Pairwise (· < ·)
  names : ∀ name, name ∈ fields.names ↔
    ∃ id ∈ visited, ∃ shape, Declares state id shape ∧ name ∈ shape.names
  stringKeys : fields.stringKeys = true ↔
    ∃ id ∈ visited, ∃ shape, Declares state id shape ∧
      shape.index.map (·.keyType) = some .string
  numberKeys : fields.numberKeys = true ↔
    ∃ id ∈ visited, ∃ shape, Declares state id shape ∧
      shape.index.map (·.keyType) = some .number

/-- The fields of all branches that can be reached from a node. -/
def Surveys (state : ResolverState) (id : SchemaId) (fields : ForeignFields) : Prop :=
  ∃ visited resolved, Resolves state id resolved ∧ resolved ∈ visited ∧
    (∀ branch ∈ visited, Expanded state visited branch ∧
      Relation.ReflTransGen (Branches state) resolved branch) ∧
    Gathers state visited fields

structure ShapeSound (core : Nat) (state : ResolverState) (older : List (SchemaId × Shape))
    (id : SchemaId) (shape : Shape) : Prop where
  fresh : older.lookup id = none
  computed : Lasts (flattenNode (resolveWithin 0 1) (recallShape older) id) state shape
  within : ∀ type ∈ shape.types, type.Within core id.index
  distinct : shape.names.Nodup

structure ProjectionSound (core : Nat) (state : ResolverState) (id projected : SchemaId) :
    Prop where
  computed : ∃ object index target shape,
    state.arena.get? id = some (.indexedAccess object index) ∧
    ResolvesLike state object target (·.isInterfaceLike = true) ∧
    state.shapes.find? target = some shape ∧ Projects core state shape index projected
  within : projected.Within core id.index ∨
    core ≤ projected.index ∧
      ∃ type, state.arena.get? projected = some (.union [type, Arena.undefined])

structure DistributionSound (core : Nat) (state : ResolverState) (id union : SchemaId) : Prop where
  behind : id.index < union.index
  late : core ≤ union.index
  computed : ∃ combinator target budget chain members distributed,
    state.arena.get? id = some (.mapped combinator target) ∧
    Walks state budget ⟨combinator, []⟩ target (some (chain, members)) ∧
    state.arena.get? union = some (.union distributed) ∧
    List.Forall₂ (Tower core state id chain.toList) members distributed

/-- How the projections came to be remembered, one by one: each was accounted for by then, by
shapes that were. -/
inductive History (core : Nat) : ResolverState → Prop
  | start {state : ResolverState} (unknown : ∀ id, state.projections.find? id = none) :
      History core state
  | grow {before after : ResolverState} (history : History core before) (grown : before ≤ after)
      (same : after.projections = before.projections) : History core after
  | keep {before : ResolverState} {id projected : SchemaId} (history : History core before)
      (shapes : ∀ older id shape, (id, shape) :: older <:+ before.shapes.entries →
        ShapeSound core before older id shape)
      (accounted : ProjectionSound core before id projected) :
      History core { before with projections := (before.projections.settle id projected).2 }

end Resolver

open Resolver

structure ResolverState.Sound (core : Nat) (state : ResolverState) : Prop where
  ordered : ∀ id node, state.arena.get? id = some node →
    ∀ child ∈ node.children, child.index < id.index
  symbols : ∀ path symbol id, state.arena.symbol? path symbol = some id → id.index < core
  undefined : state.arena.get? Arena.undefined = some (.literal .undefined)
  undefined_core : Arena.undefined.index < core
  core_le : core ≤ state.arena.size
  shapes : ∀ older id shape, (id, shape) :: older <:+ state.shapes.entries →
    ShapeSound core state older id shape
  projections : ∀ id projected, state.projections.find? id = some projected →
    ProjectionSound core state id projected
  distributions : ∀ id union, state.distributions.find? id = some union →
    DistributionSound core state id union
  distributions_injective : ∀ id other union, state.distributions.find? id = some union →
    state.distributions.find? other = some union → id = other
  foreign : ∀ id fields, state.foreign.find? id = some fields → Surveys state id fields
  history : History core state

namespace ResolverState.Sound

variable {core : Nat} {state : ResolverState} {id union : SchemaId}

/-- A union stands for combinators only. -/
theorem mapped_of_distribution (sound : state.Sound core)
    (known : state.distributions.find? id = some union) :
    ∃ combinator target, state.arena.get? id = some (.mapped combinator target) := by
  obtain ⟨combinator, target, _, _, _, _, node, -⟩ := (sound.distributions id union known).computed
  exact ⟨combinator, target, node⟩

theorem union_of_distribution (sound : state.Sound core)
    (known : state.distributions.find? id = some union) :
    ∃ members, state.arena.get? union = some (.union members) := by
  obtain ⟨_, _, _, _, _, members, -, -, node, -⟩ := (sound.distributions id union known).computed
  exact ⟨members, node⟩

end ResolverState.Sound

end Conform
