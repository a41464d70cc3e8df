import Conform.Resolver.Resolve

/-!
Combinators over unions.

A combinator whose target is a union, directly or through other combinators,
stands for the union of the members, each under the same combinators.
-/

namespace Conform.Resolver

/-- A chain of combinators, the innermost one first. -/
structure CombinatorChain where
  innermost : Combinator
  outer : List Combinator
deriving Repr

namespace CombinatorChain

def toList (chain : CombinatorChain) : List Combinator :=
  chain.innermost :: chain.outer

/-- The chain continued inwards. -/
def push (chain : CombinatorChain) (combinator : Combinator) : CombinatorChain :=
  ⟨combinator, chain.toList⟩

end CombinatorChain

/-- Walks down a chain of combinators: the members of the union at its end with
the whole chain, or nothing if an interface is there. `budget` bounds the
length of the chain. -/
def walkChain (limit : Nat) (resolve : SchemaId → Run SchemaId) :
    Nat → CombinatorChain → SchemaId → Run (Option (CombinatorChain × List SchemaId))
  | 0, _, _ => Run.fail (.depthLimitExceeded limit)
  | budget + 1, chain, target => do
      let resolved ← resolve target
      match ← Run.node resolved with
      | .union members => return some (chain, members)
      | .interface _ _ _ => return none
      | .mapped combinator inner => walkChain limit resolve budget (chain.push combinator) inner
      | node => Run.fail (.invalidCombinatorTarget chain.innermost.kind node.kind)

/-- Applies combinators to a target, the first one innermost. -/
def applyCombinators : List Combinator → SchemaId → Run SchemaId
  | [], target => return target
  | combinator :: outer, target => do
      let id ← Run.alloc (.mapped combinator target)
      applyCombinators outer id

def applyToEach (combinators : List Combinator) : List SchemaId → Run (List SchemaId)
  | [] => return []
  | member :: rest => do
      let id ← applyCombinators combinators member
      let ids ← applyToEach combinators rest
      return id :: ids

/-- The union for a combinator that has none yet, with the given number of steps
left. Nothing if `id` is no combinator or its chain ends in an interface. -/
def distributeNode (limit steps : Nat) (id : SchemaId) : Run (Option SchemaId) := do
  match ← Run.node id with
  | .mapped combinator target =>
      match ← walkChain limit (resolveWithin limit steps) limit ⟨combinator, []⟩ target with
      | none => return none
      | some (chain, members) =>
          let distributed ← applyToEach chain.toList members
          let union ← Run.alloc (.union distributed)
          return some (← Run.keepDistribution id union)
  | _ => return none

/-- The union that a combinator over a union stands for. What is remembered
costs no step. -/
def distributeWithin (limit steps : Nat) (id : SchemaId) : Run (Option SchemaId) := do
  match ← Run.read fun state => state.distributions.find? id with
  | some union => return some union
  | none =>
      match steps with
      | 0 => Run.fail (.depthLimitExceeded limit)
      | steps + 1 => distributeNode limit steps id

end Conform.Resolver
