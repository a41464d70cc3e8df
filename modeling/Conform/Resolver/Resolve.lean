import Conform.Registry.Address
import Conform.Resolver.State

/-!
Resolution and flattening.

Resolution follows references and indexed accesses to a concrete node;
flattening reduces an interface or combinator to a shape. Each needs the other:
an indexed access looks into a shape, and parents and targets are resolved
first. Every call of either uses up one of the steps that remain, whose number
bounds the recursion; what is remembered costs nothing.
-/

namespace Conform.Resolver

/-- The symbol that a reference names. -/
def lookupTarget (target : String) : Run SchemaId := do
  match Address.ofTarget? target with
  | none => Run.fail (.malformedTarget target)
  | some address =>
      match ← Run.read fun state => state.arena.symbol? address.path address.symbol with
      | some id => return id
      | none => Run.fail (.missingTarget target)

/-- Whether one of the members is the literal `undefined`. -/
def anyUndefined : List SchemaId → Run Bool
  | [] => return false
  | member :: rest => do
      match ← Run.node member with
      | .literal .undefined => return true
      | _ => anyUndefined rest

/-- Whether the type is a union with a literal `undefined` among its members. -/
def includesUndefined (type : SchemaId) : Run Bool := do
  match ← Run.node type with
  | .union members => anyUndefined members
  | _ => return false

/-- The type under an index of a shape. Of an optional property it is the union
with `undefined`, which is a new node unless the type includes it already. -/
def projectShape (shape : Shape) (index : String) : Run SchemaId := do
  match shape.property? index with
  | some property =>
      if property.optional then
        if ← includesUndefined property.type then return property.type
        else Run.alloc (.union [property.type, Arena.undefined])
      else return property.type
  | none =>
      match shape.index with
      | some signature => return signature.type
      | none => Run.fail (.unknownIndex index)

/-- What an indexed access stands for. -/
def project (resolve : SchemaId → Run SchemaId) (flatten : SchemaId → Run Shape)
    (id object : SchemaId) (index : String) : Run SchemaId := do
  match ← Run.read fun state => state.projections.find? id with
  | some known => return known
  | none =>
      let target ← resolve object
      let node ← Run.node target
      if node.isInterfaceLike then
        let shape ← flatten target
        let projected ← projectShape shape index
        Run.keepProjection id projected
      else Run.fail (.indexOnNonInterface node.kind)

/-- The end of a chain at a node that stands on it already: only references
and indexed accesses lead on, and there they close a cycle. -/
def closeChain (id : SchemaId) : Run SchemaId := do
  match ← Run.node id with
  | .reference target => Run.fail (.referenceCycle target)
  | .indexedAccess _ index => Run.fail (.referenceCycle index)
  | _ => return id

/-- The next node of a chain; a concrete node has none. -/
def hop (project : SchemaId → SchemaId → String → Run SchemaId) (id : SchemaId) :
    Run (Option SchemaId) := do
  match ← Run.node id with
  | .reference target => return some (← lookupTarget target)
  | .indexedAccess object index => return some (← project id object index)
  | _ => return none

/-- Follows a chain to its concrete node. `hops` counts the nodes that can
still be met for the first time; when none is left, every node stands on the
chain already. -/
def follow (project : SchemaId → SchemaId → String → Run SchemaId) :
    Nat → List SchemaId → SchemaId → Run SchemaId
  | 0, _, current => closeChain current
  | hops + 1, visited, current =>
      if visited.contains current then closeChain current
      else do
        match ← hop project current with
        | some next => follow project hops (current :: visited) next
        | none => return current

/-- A shape that is remembered, or else a computed one. `chain` holds the nodes
whose shapes are being computed: one of them cannot depend on itself. -/
def unlessKnown (chain : List SchemaId) (id : SchemaId) (compute : Run Shape) : Run Shape := do
  match ← Run.read fun state => state.shapes.find? id with
  | some shape => return shape
  | none =>
      if chain.contains id then Run.fail (.cyclicInheritance id)
      else compute

section

variable (resolve : SchemaId → Run SchemaId) (flatten : SchemaId → Run Shape)

/-- Adds to a shape what the parents have and it lacks, one after the other. -/
def inheritParents : Shape → List SchemaId → Run Shape
  | shape, [] => return shape
  | shape, parent :: rest => do
      let resolved ← resolve parent
      match ← Run.node resolved with
      | .interface _ _ _ =>
          let inherited ← flatten resolved
          inheritParents (shape.inherit inherited) rest
      | node => Run.fail (.nonInterfaceParent node.kind)

/-- The shape that a combinator works on. -/
def flattenTarget (combinator : Combinator) (target : SchemaId) : Run Shape := do
  let resolved ← resolve target
  let node ← Run.node resolved
  if node.isInterfaceLike then flatten resolved
  else Run.fail (.invalidCombinatorTarget combinator.kind node.kind)

/-- The shape of a node, from the shapes of the nodes it depends on. -/
def flattenNode (id : SchemaId) : Run Shape := do
  match ← Run.node id with
  | .reference _ | .indexedAccess _ _ =>
      let target ← resolve id
      let node ← Run.node target
      if node.isInterfaceLike then flatten target
      else Run.fail (.notInterfaceLike node.kind)
  | .interface properties index parents =>
      inheritParents resolve flatten (Shape.own properties index) parents
  | .mapped combinator target =>
      let base ← flattenTarget resolve flatten combinator target
      match combinator with
      | .pick keys => Run.ofExcept (base.pick keys)
      | .optional => return base.allOptional
      | .without keys => return base.without keys
      | .overwrite patch => return base.overwrite (← flatten patch)
  | node => Run.fail (.notInterfaceLike node.kind)

end

mutual

/-- The concrete node behind `id`, with the given number of steps left. -/
def resolveWithin (limit : Nat) : Nat → SchemaId → Run SchemaId
  | 0, _ => Run.fail (.depthLimitExceeded limit)
  | steps + 1, id => do
      let hops ← Run.read fun state => state.arena.size
      follow (project (resolveWithin limit steps) (flattenWithin limit steps [])) hops [] id
termination_by structural steps => steps

/-- The shape of `id`, with the given number of steps left. -/
def flattenWithin (limit : Nat) : Nat → List SchemaId → SchemaId → Run Shape
  | 0, chain, id => unlessKnown chain id (Run.fail (.depthLimitExceeded limit))
  | steps + 1, chain, id =>
      unlessKnown chain id do
        let shape ← flattenNode (resolveWithin limit steps)
          (flattenWithin limit steps (id :: chain)) id
        Run.keepShape id shape
termination_by structural steps => steps

end

end Conform.Resolver
