import Conform.Resolver.Distribute

/-!
The foreign fields of a union or intersection.

All branches are visited that can be reached through unions, intersections and
distributed combinators, each one once.
-/

namespace Conform.Resolver

/-- The nodes that have been visited, and what the branches among them
declare. -/
structure Collected where
  visited : List SchemaId
  fields : ForeignFields

namespace Collected

def empty : Collected := ⟨[], .empty⟩

def mark (collected : Collected) (id : SchemaId) : Collected :=
  { collected with visited := id :: collected.visited }

def absorb (collected : Collected) (shape : Shape) : Collected :=
  { collected with fields := collected.fields.absorb shape }

end Collected

/-- Visits one branch; `collect` visits the branches inside it. -/
def visit (limit steps : Nat) (collect : Collected → List SchemaId → Run Collected)
    (collected : Collected) (id : SchemaId) : Run Collected := do
  let resolved ← resolveWithin limit steps id
  if collected.visited.contains resolved then return collected
  else
    let marked := collected.mark resolved
    match ← Run.node resolved with
    | .union members | .intersection members => collect marked members
    | .interface _ _ _ | .mapped _ _ =>
        match ← distributeWithin limit steps resolved with
        | some union => collect marked [union]
        | none =>
            let shape ← flattenWithin limit steps [] resolved
            return marked.absorb shape
    | _ => return marked

/-- Visits branches with the given number of steps left. -/
def collectWithin (limit : Nat) : Nat → Collected → List SchemaId → Run Collected
  | 0, _, _ => Run.fail (.depthLimitExceeded limit)
  | steps + 1, collected, ids =>
      ids.foldlM (visit limit steps (collectWithin limit steps)) collected

end Conform.Resolver
