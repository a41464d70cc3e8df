import Conform.Resolver.Foreign

/-!
The operations of resolution, each with the full number of steps.
-/

namespace Conform.Resolver

/-- The root node of a symbol. -/
def lookup (path symbol : String) : Run SchemaId := do
  if ← Run.read fun state => state.arena.hasModule path then
    match ← Run.read fun state => state.arena.symbol? path symbol with
    | some id => return id
    | none => Run.fail (.unknownSymbol path symbol)
  else Run.fail (.unknownPath path)

/-- The concrete node at the end of references and indexed accesses. -/
def resolve (limit : Nat) (id : SchemaId) : Run SchemaId :=
  resolveWithin limit limit id

/-- Whether `id` resolves to an interface or a combinator. -/
def isInterfaceLike (limit : Nat) (id : SchemaId) : Run Bool := do
  let resolved ← resolve limit id
  let node ← Run.node resolved
  return node.isInterfaceLike

/-- The shape of an interface or combinator. A combinator over a union has
none; `distribute` gives the union it stands for. -/
def flatten (limit : Nat) (id : SchemaId) : Run Shape :=
  flattenWithin limit limit [] id

/-- The union that a combinator over a union stands for. -/
def distribute (limit : Nat) (id : SchemaId) : Run (Option SchemaId) :=
  distributeWithin limit limit id

/-- The fields that any branch reachable from `id` declares. -/
def foreignFields (limit : Nat) (id : SchemaId) : Run ForeignFields := do
  match ← Run.read fun state => state.foreign.find? id with
  | some fields => return fields
  | none =>
      let collected ← collectWithin limit limit .empty [id]
      Run.keepForeign id collected.fields

end Conform.Resolver
