import Conform.Validator.Basic

/-! Checks on a budget.  Beside every recursion and every loop runs a count of how far it may
still go, and where a count runs out the answer is one that nothing else gives.  The steps of
the options stay what they are: they decide what the answer is, the budget does not. -/

namespace Conform

open Resolver

structure Budget where
  /-- How deep the calls of resolution under one step of a check may nest. -/
  calls : Nat
  /-- How often the loop along references and indexed accesses may turn. -/
  turns : Nat
  /-- How often the loop down a chain of combinators may turn. -/
  links : Nat
  /-- The answer where one of the counts runs out. -/
  spent : SchemaError

namespace Budget

variable (budget : Budget) (limit : Nat)

/-- Follows a chain, one turn a node, until it ends or meets a node again. -/
def follow (project : SchemaId → SchemaId → String → Run SchemaId) :
    Nat → List SchemaId → SchemaId → Run SchemaId
  | 0, _, _ => Run.fail budget.spent
  | turns + 1, visited, current =>
      if visited.contains current then closeChain current
      else do
        match ← hop project current with
        | some next => follow project turns (current :: visited) next
        | none => return current

mutual

/-- The concrete node behind `id`. The first number counts the calls that may still be
nested, the second one the steps that are left. -/
def resolveIn : Nat → Nat → SchemaId → Run SchemaId
  | 0, _, _ => Run.fail budget.spent
  | _ + 1, 0, _ => Run.fail (.depthLimitExceeded limit)
  | calls + 1, steps + 1, id =>
      budget.follow (project (resolveIn calls steps) (flattenIn calls steps [])) budget.turns [] id
termination_by structural calls => calls

def flattenIn : Nat → Nat → List SchemaId → SchemaId → Run Shape
  | 0, _, _, _ => Run.fail budget.spent
  | _ + 1, 0, chain, id => unlessKnown chain id (Run.fail (.depthLimitExceeded limit))
  | calls + 1, steps + 1, chain, id =>
      unlessKnown chain id do
        let shape ← flattenNode (resolveIn calls steps) (flattenIn calls steps (id :: chain)) id
        Run.keepShape id shape
termination_by structural calls => calls

end

/-- Walks down a chain of combinators, one turn a combinator. `length` bounds the chain as it
does without a budget. -/
def walk (resolve : SchemaId → Run SchemaId) :
    Nat → Nat → CombinatorChain → SchemaId → Run (Option (CombinatorChain × List SchemaId))
  | 0, _, _, _ => Run.fail budget.spent
  | _ + 1, 0, _, _ => Run.fail (.depthLimitExceeded limit)
  | turns + 1, length + 1, chain, target => do
      let resolved ← resolve target
      match ← Run.node resolved with
      | .union members => return some (chain, members)
      | .interface _ _ _ => return none
      | .mapped combinator inner => walk resolve turns length (chain.push combinator) inner
      | node => Run.fail (.invalidCombinatorTarget chain.innermost.kind node.kind)

def distributeNode (calls steps : Nat) (id : SchemaId) : Run (Option SchemaId) := do
  match ← Run.node id with
  | .mapped combinator target =>
      match ← budget.walk limit (budget.resolveIn limit calls steps) budget.links limit
          ⟨combinator, []⟩ target with
      | none => return none
      | some (chain, members) =>
          let distributed ← applyToEach chain.toList members
          let union ← Run.alloc (.union distributed)
          return some (← Run.keepDistribution id union)
  | _ => return none

def distributeIn : Nat → Nat → SchemaId → Run (Option SchemaId)
  | 0, _, _ => Run.fail budget.spent
  | calls + 1, steps, id => do
      match ← Run.read fun state => state.distributions.find? id with
      | some union => return some union
      | none =>
          match steps with
          | 0 => Run.fail (.depthLimitExceeded limit)
          | steps + 1 => budget.distributeNode limit calls steps id

def visit (calls steps : Nat) (collect : Collected → List SchemaId → Run Collected)
    (collected : Collected) (id : SchemaId) : Run Collected := do
  let resolved ← budget.resolveIn limit calls steps id
  if collected.visited.contains resolved then return collected
  else
    let marked := collected.mark resolved
    match ← Run.node resolved with
    | .union members | .intersection members => collect marked members
    | .interface _ _ _ | .mapped _ _ =>
        match ← budget.distributeIn limit calls steps resolved with
        | some union => collect marked [union]
        | none =>
            let shape ← budget.flattenIn limit calls steps [] resolved
            return marked.absorb shape
    | _ => return marked

def collectIn : Nat → Nat → Collected → List SchemaId → Run Collected
  | 0, _, _, _ => Run.fail budget.spent
  | _ + 1, 0, _, _ => Run.fail (.depthLimitExceeded limit)
  | calls + 1, steps + 1, collected, ids =>
      ids.foldlM (budget.visit limit calls steps (collectIn calls steps)) collected

/-- What a step of a check asks for, with the calls of the whole budget. -/
def resolve (id : SchemaId) : Run SchemaId :=
  budget.resolveIn limit budget.calls limit id

def flatten (id : SchemaId) : Run Shape :=
  budget.flattenIn limit budget.calls limit [] id

def distribute (id : SchemaId) : Run (Option SchemaId) :=
  budget.distributeIn limit budget.calls limit id

def foreignFields (id : SchemaId) : Run ForeignFields := do
  match ← Run.read fun state => state.foreign.find? id with
  | some fields => return fields
  | none =>
      let collected ← budget.collectIn limit budget.calls limit .empty [id]
      Run.keepForeign id collected.fields

section

open Validator

variable (options : Options)

def checkInterfaceLike (checkPart : Value → SchemaId → Run Outcome) (value : Value)
    (foreign : Option ForeignFields) (checkUnion : SchemaId → Run Outcome) (id : SchemaId) :
    Run Outcome := do
  match ← budget.distribute options.maxDepth id with
  | some union => checkUnion union
  | none =>
      let shape ← budget.flatten options.maxDepth id
      match value with
      | .object object => checkShape checkPart options object shape foreign
      | _ => return wrongType "Object" value

mutual

/-- A value against a schema. The first number counts the checks that may still be nested,
whichever part of the value they are about; the second one the steps that are left. -/
def checkIn : Nat → Nat → Value → SchemaId → Run Outcome
  | 0, _, _, _ => Run.fail budget.spent
  | _ + 1, 0, _, _ => Run.fail (.depthLimitExceeded options.maxDepth)
  | nesting + 1, steps + 1, value, id => do
      match ← Run.node id with
      | .boolean => return checkBoolean value
      | .string => return checkString value
      | .any => return .success
      | .nonPrimitive => return checkNonPrimitive value
      | .number scalar => return checkNumber (scalar.getD .double) value
      | .literal literal => return checkLiteral options literal value
      | .enumeration values => return checkEnum values value
      | .array element => checkArray (checkIn nesting options.maxDepth) element value
      | .tuple elements optionalStart =>
          checkTuple (checkIn nesting options.maxDepth) elements optionalStart value
      | .buffer kind => return checkBuffer kind value
      | .reference _ | .indexedAccess _ _ =>
          let target ← budget.resolve options.maxDepth id
          checkIn nesting steps value target
      | .union members =>
          let foreign ← budget.foreignFields options.maxDepth id
          checkAny (checkMemberIn nesting steps value foreign) [] members
      | .intersection members =>
          let foreign ← budget.foreignFields options.maxDepth id
          checkAll (checkMemberIn nesting steps value foreign) 0 members
      | .interface _ _ _ | .mapped _ _ =>
          budget.checkInterfaceLike options (checkIn nesting options.maxDepth) value none
            (checkIn nesting steps value) id
termination_by structural nesting => nesting

def checkMemberIn : Nat → Nat → Value → ForeignFields → SchemaId → Run Outcome
  | 0, _, _, _, _ => Run.fail budget.spent
  | _ + 1, 0, _, _, _ => Run.fail (.depthLimitExceeded options.maxDepth)
  | nesting + 1, steps + 1, value, foreign, id => do
      let resolved ← budget.resolve options.maxDepth id
      match ← Run.node resolved with
      | .union members => checkAny (checkMemberIn nesting steps value foreign) [] members
      | .intersection members => checkAll (checkMemberIn nesting steps value foreign) 0 members
      | .interface _ _ _ | .mapped _ _ =>
          budget.checkInterfaceLike options (checkIn nesting options.maxDepth) value (some foreign)
            (checkMemberIn nesting steps value foreign) resolved
      | _ => checkIn nesting steps value resolved
termination_by structural nesting => nesting

end

/-- A check with all steps, nested as deep as `nesting` allows. -/
def check (nesting : Nat) (value : Value) (id : SchemaId) : Run Outcome :=
  budget.checkIn options nesting options.maxDepth value id

end

end Budget

end Conform
