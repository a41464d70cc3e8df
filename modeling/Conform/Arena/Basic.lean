import Conform.Arena.Node
import Conform.Registry.Basic

/-!
The arena: every node of a registry, and the identities of its symbols.

Nodes are only ever added, so an identity keeps its meaning. A schema is
interned with the inner schemas first: a node mentions only earlier ones.
References stay symbolic, which lets schemas refer to each other in any order.
-/

namespace Conform

structure Arena where
  nodes : Array Node
  symbols : List (String × List (String × SchemaId))

namespace Arena

/-- The node that accepts every value. -/
def any : SchemaId := ⟨0⟩

/-- The node of the literal `undefined`. -/
def undefined : SchemaId := ⟨1⟩

/-- Adds a node to a growing list of nodes. -/
def push (node : Node) : StateM (Array Node) SchemaId :=
  fun nodes => (⟨nodes.size⟩, nodes.push node)

mutual

/-- Adds a schema, inner schemas first. -/
def pushSchema : Schema → StateM (Array Node) SchemaId
  | .boolean => push .boolean
  | .string => push .string
  | .any => push .any
  | .nonPrimitive => push .nonPrimitive
  | .number scalar => push (.number scalar)
  | .literal value => push (.literal value)
  | .enumeration members => push (.enumeration (members.map (·.value)))
  | .array element => do
      let element ← pushSchema element
      push (.array element)
  | .tuple elements optionalStart => do
      let elements ← pushSchemas elements
      push (.tuple elements (optionalStart.map (·.toNat)))
  | .buffer kind => push (.buffer kind)
  | .interface properties index parents => do
      let properties ← pushProperties properties
      let index ← pushIndex index
      let parents ← pushBranches parents
      push (.interface properties index parents)
  | .reference target => push (.reference target)
  | .indexedAccess object index => do
      let object ← pushSchema object
      push (.indexedAccess object index)
  | .union members => do
      let members ← pushBranches members
      push (.union members)
  | .intersection members => do
      let members ← pushBranches members
      push (.intersection members)
  | .pick target keys => do
      let target ← pushSchema target
      push (.mapped (.pick keys) target)
  | .optional target => do
      let target ← pushSchema target
      push (.mapped .optional target)
  | .without target keys => do
      let target ← pushSchema target
      push (.mapped (.without keys) target)
  | .overwrite target patch => do
      let target ← pushSchema target
      let patch ← pushSchema patch
      push (.mapped (.overwrite patch) target)
termination_by structural schema => schema

def pushSchemas : List Schema → StateM (Array Node) (List SchemaId)
  | [] => return []
  | schema :: rest => do
      let id ← pushSchema schema
      let ids ← pushSchemas rest
      return id :: ids
termination_by structural schemas => schemas

def pushProperties : List PropertyDecl → StateM (Array Node) (List Property)
  | [] => return []
  | ⟨_, name, isOptional, type⟩ :: rest => do
      let id ← pushSchema type
      let properties ← pushProperties rest
      return ⟨name, isOptional, id⟩ :: properties
termination_by structural properties => properties

def pushIndex : Option IndexDecl → StateM (Array Node) (Option IndexSignature)
  | none => return none
  | some ⟨keyType, type⟩ => do
      let id ← pushSchema type
      return some ⟨keyType, id⟩
termination_by structural index => index

def pushBranches : List Branch → StateM (Array Node) (List SchemaId)
  | [] => return []
  | ⟨_, type⟩ :: rest => do
      let id ← pushSchema type
      let ids ← pushBranches rest
      return id :: ids
termination_by structural branches => branches

end

/-- Adds the symbols of one module. -/
def pushSymbols : List (String × Schema) → StateM (Array Node) (List (String × SchemaId))
  | [] => return []
  | (symbol, schema) :: rest => do
      let id ← pushSchema schema
      let symbols ← pushSymbols rest
      return (symbol, id) :: symbols

def pushModules : List (String × Table Schema) →
    StateM (Array Node) (List (String × List (String × SchemaId)))
  | [] => return []
  | (path, table) :: rest => do
      let symbols ← pushSymbols table.entries
      let modules ← pushModules rest
      return (path, symbols) :: modules

/-- The arena of a registry, in the order of its modules and symbols. -/
def ofRegistry (registry : Registry) : Arena :=
  let (symbols, nodes) :=
    pushModules registry.modules.entries #[.any, .literal .undefined]
  ⟨nodes, symbols⟩

def get? (arena : Arena) (id : SchemaId) : Option Node :=
  arena.nodes[id.index]?

/-- Adds a node as it is, without a look at the identities in it. -/
def alloc (arena : Arena) (node : Node) : SchemaId × Arena :=
  let (id, nodes) := push node arena.nodes
  (id, { arena with nodes })

/-- Adds a schema. Every call yields new identities. -/
def intern (arena : Arena) (schema : Schema) : SchemaId × Arena :=
  let (id, nodes) := pushSchema schema arena.nodes
  (id, { arena with nodes })

def hasModule (arena : Arena) (path : String) : Bool :=
  (arena.symbols.lookup path).isSome

def symbol? (arena : Arena) (path symbol : String) : Option SchemaId :=
  (arena.symbols.lookup path).bind (·.lookup symbol)

def moduleCount (arena : Arena) : Nat :=
  arena.symbols.length

def symbolCount (arena : Arena) : Nat :=
  arena.symbols.foldl (fun total (_, symbols) => total + symbols.length) 0

def size (arena : Arena) : Nat :=
  arena.nodes.size

def isEmpty (arena : Arena) : Bool :=
  arena.size == 0

end Arena

end Conform
