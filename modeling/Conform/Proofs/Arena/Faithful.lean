import Mathlib.Algebra.GroupWithZero.Nat
import Conform.Proofs.Arena.Blocks
import Conform.Proofs.Schema.References

/-! Schemas read back from an arena.  What has been interned is read back as it was, without the
numbers of declarations, and takes one node for every schema in it. -/

namespace Conform

namespace Schema

mutual

/-- The number of schemas in a schema, itself included. -/
def nodeCount : Schema → Nat
  | .array element => element.nodeCount + 1
  | .tuple elements _ => nodeCountSchemas elements + 1
  | .interface properties index parents =>
      nodeCountProperties properties + (nodeCountIndex index + (nodeCountBranches parents + 1))
  | .indexedAccess object _ => object.nodeCount + 1
  | .union members | .intersection members => nodeCountBranches members + 1
  | .pick target _ | .optional target | .without target _ => target.nodeCount + 1
  | .overwrite target patch => target.nodeCount + (patch.nodeCount + 1)
  | _ => 1
termination_by structural schema => schema

def nodeCountSchemas : List Schema → Nat
  | [] => 0
  | schema :: rest => schema.nodeCount + nodeCountSchemas rest
termination_by structural schemas => schemas

def nodeCountProperties : List PropertyDecl → Nat
  | [] => 0
  | ⟨_, _, _, type⟩ :: rest => type.nodeCount + nodeCountProperties rest
termination_by structural properties => properties

def nodeCountIndex : Option IndexDecl → Nat
  | none => 0
  | some ⟨_, type⟩ => type.nodeCount
termination_by structural index => index

def nodeCountBranches : List Branch → Nat
  | [] => 0
  | ⟨_, type⟩ :: rest => type.nodeCount + nodeCountBranches rest
termination_by structural branches => branches

end

end Schema

namespace Node

variable (read : SchemaId → Option Schema)

def readProperty (property : Property) : Option PropertyDecl := do
  return ⟨0, property.name, property.optional, ← read property.type⟩

def readIndex (signature : IndexSignature) : Option IndexDecl := do
  return ⟨signature.keyType, ← read signature.type⟩

def readBranch (id : SchemaId) : Option Branch := do
  return ⟨0, ← read id⟩

/-- The schema of a node, from those of the identities in it.  Its declarations are numbered zero. -/
def schema? : Node → Option Schema
  | .boolean => some .boolean
  | .string => some .string
  | .any => some .any
  | .nonPrimitive => some .nonPrimitive
  | .number scalar => some (.number scalar)
  | .literal value => some (.literal value)
  | .enumeration values => some (.enumeration (values.map fun value => ⟨0, value⟩))
  | .array element => do return .array (← read element)
  | .tuple elements optionalStart => do
      return .tuple (← elements.mapM read) (optionalStart.map UInt64.ofNat)
  | .buffer kind => some (.buffer kind)
  | .interface properties index parents => do
      return .interface (← properties.mapM (readProperty read)) (← index.mapM (readIndex read))
        (← parents.mapM (readBranch read))
  | .reference target => some (.reference target)
  | .indexedAccess object index => do return .indexedAccess (← read object) index
  | .union members => do return .union (← members.mapM (readBranch read))
  | .intersection members => do return .intersection (← members.mapM (readBranch read))
  | .mapped combinator target => do
      let target ← read target
      match combinator with
      | .pick keys => return .pick target keys
      | .optional => return .optional target
      | .without keys => return .without target keys
      | .overwrite patch => return .overwrite target (← read patch)

end Node

namespace Arena

/-- The schema under an identity, if it has no more than the given levels. -/
def readWithin (nodes : Array Node) : Nat → SchemaId → Option Schema
  | 0, _ => none
  | levels + 1, id => (nodes[id.index]?).bind (Node.schema? (readWithin nodes levels))

/-- The schema under an identity.  A node that mentions earlier ones only has no more levels than
there are nodes up to it. -/
def read? (arena : Arena) (id : SchemaId) : Option Schema :=
  readWithin arena.nodes (id.index + 1) id

open Schema

variable {α β : Type} {count : Nat} {given holds : (SchemaId → Option Schema) → Prop}
  {reads : (SchemaId → Option Schema) → α → Prop} {others : (SchemaId → Option Schema) → β → Prop}
  {first run : StateM (Array Node) α} {next : α → StateM (Array Node) β} {nodes : Array Node}

/-- What holds of reading here, and whatever is added later. -/
def Lasting (nodes : Array Node) (holds : (SchemaId → Option Schema) → Prop) : Prop :=
  ∀ (later : Array Node) levels, (∀ (index : Nat) node, nodes[index]? = some node → later[index]? = some node) →
    nodes.size ≤ levels → holds (readWithin later levels)

theorem Lasting.append (lasting : Lasting nodes holds) (added : Array Node) :
    Lasting (nodes ++ added) holds := by
  intro later levels kept enough
  refine lasting later levels (fun index node found => kept index node ?_) ?_
  · rw [Array.getElem?_append_left (Array.getElem?_eq_some_iff.mp found).1, found]
  · rw [Array.size_append] at enough
    omega

/-- So many nodes are added, and from then on the answer reads in a certain way. -/
def Records (given : (SchemaId → Option Schema) → Prop) (count : Nat) (run : StateM (Array Node) α)
    (reads : (SchemaId → Option Schema) → α → Prop) : Prop :=
  ∀ nodes, Lasting nodes given → ∃ added : Array Node, (run nodes).2 = nodes ++ added ∧
    added.size = count ∧ Lasting (run nodes).2 fun read => reads read (run nodes).1

namespace Records

theorem bind {more : Nat} (part : Records given count first reads)
    (rest : ∀ answer, Records (fun read => given read ∧ reads read answer) more (next answer) others) :
    Records given (count + more) (first >>= next) others := by
  intro nodes lasting
  obtain ⟨added, grown, size, known⟩ := part nodes lasting
  obtain ⟨added', grown', size', known'⟩ := rest (first nodes).1 (first nodes).2
    fun later levels kept enough =>
      ⟨(grown ▸ lasting.append added) later levels kept enough, known later levels kept enough⟩
  refine ⟨added ++ added', ?_, by rw [Array.size_append, size, size'], known'⟩
  rw [← Array.append_assoc, ← grown]
  exact grown'

theorem pure {answer : α} (known : ∀ read, given read → reads read answer) :
    Records given 0 (pure answer) reads :=
  fun _ lasting => ⟨#[], Array.append_empty.symm, rfl,
    fun later levels kept enough => known _ (lasting later levels kept enough)⟩

theorem push {node : Node} {schema : Schema} (known : ∀ read, given read → node.schema? read = some schema) :
    Records given 1 (push node) fun read id => read id = some schema := by
  intro nodes lasting
  refine ⟨#[node], rfl, rfl, fun later levels kept enough => ?_⟩
  cases levels with
  | zero => simp [Arena.push] at enough
  | succ levels =>
      have last : later[nodes.size]? = some node := kept nodes.size node (by simp [Arena.push])
      have earlier (index : Nat) (other : Node) (found : nodes[index]? = some other) :
          later[index]? = some other := by
        refine kept index other ?_
        simp [Arena.push, Array.getElem?_push_lt (Array.getElem?_eq_some_iff.mp found).1,
          (Array.getElem?_eq_some_iff.mp found).2]
      simp only [readWithin, Arena.push, last, Option.bind_some]
      exact known _ (lasting later levels earlier (by simpa [Arena.push] using enough))

end Records

mutual

theorem pushSchema_records : ∀ (schema : Schema) (given : (SchemaId → Option Schema) → Prop),
    Records given schema.nodeCount (pushSchema schema) fun read id => read id = some schema.unnumbered
  | .boolean, _ | .string, _ | .any, _ | .nonPrimitive, _ | .number _, _ | .literal _, _ | .buffer _, _
  | .reference _, _ => .push fun _ _ => rfl
  | .enumeration members, _ => .push fun _ _ => by
      simp only [Node.schema?, unnumbered, List.map_map, Function.comp_def]
  | .array element, given => .bind (pushSchema_records element given) fun _ =>
      .push fun _ known => by simp [Node.schema?, unnumbered, known.2]
  | .tuple elements optionalStart, given => .bind (pushSchemas_records elements given) fun _ =>
      .push fun _ known => by simp [Node.schema?, unnumbered, known.2, Function.comp_def]
  | .interface properties index parents, given =>
      .bind (pushProperties_records properties given) fun _ =>
        .bind (pushIndex_records index _) fun _ =>
          .bind (pushBranches_records parents _) fun _ => .push fun _ known => by
            simp [Node.schema?, unnumbered, known.1.1.2, known.1.2, known.2]
  | .indexedAccess object _, given => .bind (pushSchema_records object given) fun _ =>
      .push fun _ known => by simp [Node.schema?, unnumbered, known.2]
  | .union members, given | .intersection members, given =>
      .bind (pushBranches_records members given) fun _ => .push fun _ known => by
        simp [Node.schema?, unnumbered, known.2]
  | .pick target _, given | .optional target, given | .without target _, given =>
      .bind (pushSchema_records target given) fun _ => .push fun _ known => by
        simp [Node.schema?, unnumbered, known.2]
  | .overwrite target patch, given => .bind (pushSchema_records target given) fun _ =>
      .bind (pushSchema_records patch _) fun _ => .push fun _ known => by
        simp [Node.schema?, unnumbered, known.1.2, known.2]
termination_by structural schema => schema

theorem pushSchemas_records : ∀ (schemas : List Schema) (given : (SchemaId → Option Schema) → Prop),
    Records given (nodeCountSchemas schemas) (pushSchemas schemas) fun read ids =>
      ids.mapM read = some (unnumberedSchemas schemas)
  | [], _ => .pure fun _ _ => rfl
  | schema :: rest, given => .bind (pushSchema_records schema given) fun _ =>
      .bind (pushSchemas_records rest _) fun _ => .pure fun _ known => by
        simp [unnumberedSchemas, known.1.2, known.2]
termination_by structural schemas => schemas

theorem pushProperties_records : ∀ (properties : List PropertyDecl)
    (given : (SchemaId → Option Schema) → Prop),
    Records given (nodeCountProperties properties) (pushProperties properties) fun read properties' =>
      properties'.mapM (Node.readProperty read) = some (unnumberedProperties properties)
  | [], _ => .pure fun _ _ => rfl
  | ⟨_, _, _, type⟩ :: rest, given => .bind (pushSchema_records type given) fun _ =>
      .bind (pushProperties_records rest _) fun _ => .pure fun _ known => by
        simp [unnumberedProperties, Node.readProperty, known.1.2, known.2]
termination_by structural properties => properties

theorem pushIndex_records : ∀ (index : Option IndexDecl) (given : (SchemaId → Option Schema) → Prop),
    Records given (nodeCountIndex index) (pushIndex index) fun read signature =>
      signature.mapM (Node.readIndex read) = some (unnumberedIndex index)
  | none, _ => .pure fun _ _ => rfl
  | some ⟨_, type⟩, given => .bind (pushSchema_records type given) fun _ => .pure fun _ known => by
      simp [unnumberedIndex, Node.readIndex, known.2]
termination_by structural index => index

theorem pushBranches_records : ∀ (branches : List Branch) (given : (SchemaId → Option Schema) → Prop),
    Records given (nodeCountBranches branches) (pushBranches branches) fun read ids =>
      ids.mapM (Node.readBranch read) = some (unnumberedBranches branches)
  | [], _ => .pure fun _ _ => rfl
  | ⟨_, type⟩ :: rest, given => .bind (pushSchema_records type given) fun _ =>
      .bind (pushBranches_records rest _) fun _ => .pure fun _ known => by
        simp [unnumberedBranches, Node.readBranch, known.1.2, known.2]
termination_by structural branches => branches

end

/-- The answer is the last identity. -/
def EndsLast (run : StateM (Array Node) SchemaId) : Prop :=
  ∀ nodes, (run nodes).1.index + 1 = (run nodes).2.size

theorem EndsLast.push (node : Node) : EndsLast (push node) :=
  fun nodes => (nodes.size_push node).symm

theorem EndsLast.bind {next : α → StateM (Array Node) SchemaId} (rest : ∀ answer, EndsLast (next answer)) :
    EndsLast (first >>= next) :=
  fun nodes => rest (first nodes).1 (first nodes).2

theorem pushSchema_last (schema : Schema) : EndsLast (pushSchema schema) := by
  cases schema with
  | array | tuple | indexedAccess | union | intersection | pick | optional | without =>
      exact .bind fun _ => .push _
  | overwrite => exact .bind fun _ => .bind fun _ => .push _
  | interface => exact .bind fun _ => .bind fun _ => .bind fun _ => .push _
  | _ => exact .push _

/-- A schema that has been added, with the nodes that came with it. -/
theorem pushSchema_reads (schema : Schema) (nodes : Array Node) :
    ∃ added : Array Node, (pushSchema schema nodes).2 = nodes ++ added ∧ added.size = schema.nodeCount ∧
      Lasting (pushSchema schema nodes).2 fun read => read (pushSchema schema nodes).1 = some schema.unnumbered :=
  pushSchema_records schema (fun _ => True) nodes fun _ _ _ _ => trivial

theorem intern_last (arena : Arena) (schema : Schema) :
    (arena.intern schema).1.index + 1 = (arena.intern schema).2.size :=
  pushSchema_last schema arena.nodes

theorem read?_intern (arena : Arena) (schema : Schema) :
    (arena.intern schema).2.read? (arena.intern schema).1 = some schema.unnumbered := by
  obtain ⟨added, -, -, lasting⟩ := pushSchema_reads schema arena.nodes
  exact lasting _ _ (fun _ _ found => found) (arena.intern_last schema).symm.le

theorem pushAll_size (symbols : List (String × String × Schema)) (nodes : Array Node) :
    (pushAll symbols nodes).size = nodes.size + (symbols.map (·.2.2.nodeCount)).sum := by
  induction symbols generalizing nodes with
  | nil => rfl
  | cons entry rest ih =>
      obtain ⟨added, grown, size, -⟩ := pushSchema_reads entry.2.2 nodes
      have step : pushAll (entry :: rest) nodes = pushAll rest (pushSchema entry.2.2 nodes).2 := rfl
      rw [step, ih, grown, Array.size_append, size, List.map_cons, List.sum_cons, Nat.add_assoc]

theorem pushSymbols_names (symbols : List (String × Schema)) (nodes : Array Node) :
    (pushSymbols symbols nodes).1.map (·.1) = symbols.map (·.1) := by
  induction symbols generalizing nodes with
  | nil => rfl
  | cons entry rest ih => exact congrArg (entry.1 :: ·) (ih _)

theorem pushModules_names (modules : List (String × Table Schema)) (nodes : Array Node) :
    (pushModules modules nodes).1.map (fun (path, symbols) => (path, symbols.map (·.1))) =
      modules.map fun (path, table) => (path, table.names) := by
  induction modules generalizing nodes with
  | nil => rfl
  | cons entry rest ih =>
      exact congrArg₂ (fun symbols others => (entry.1, symbols) :: others) (pushSymbols_names _ _) (ih _)

/-- The node of a symbol reads as its schema. -/
theorem read?_root {registry : Registry} {block : Block} (listed : block ∈ registry.blocks) :
    (ofRegistry registry).read? block.root = some block.schema.unnumbered := by
  obtain ⟨added, -, -, lasting⟩ := pushSchema_reads block.schema block.before
  exact lasting _ _ (Registry.block_adds listed).2.kept (pushSchema_last block.schema block.before).symm.le

/-- Interning a schema adds one node for each schema in it, to the end, and answers with the last one;
reading from there gives the schema back with its declarations numbered zero.  The arena of a
registry names exactly its symbols, reads each as it is defined, and holds nothing else but two
nodes. -/
theorem interned_schemas_read_back :
    (∀ (arena : Arena) (schema : Schema), ∃ added : Array Node,
      (arena.intern schema).2 = { arena with nodes := arena.nodes ++ added } ∧
        added.size = schema.nodeCount ∧
        (arena.intern schema).1.index + 1 = (arena.intern schema).2.size ∧
        (arena.intern schema).2.read? (arena.intern schema).1 = some schema.unnumbered) ∧
      ∀ registry : Registry,
        (ofRegistry registry).symbols.map (fun (path, symbols) => (path, symbols.map (·.1))) =
            registry.modules.entries.map (fun (path, table) => (path, table.names)) ∧
          (∀ path symbol, ((ofRegistry registry).symbol? path symbol).map (ofRegistry registry).read? =
            (registry.get? path symbol).map fun schema => some schema.unnumbered) ∧
          (ofRegistry registry).size = 2 + (registry.symbols.map (·.2.2.nodeCount)).sum := by
  refine ⟨fun arena schema => ?_, fun registry => ⟨pushModules_names _ _, fun path symbol => ?_, ?_⟩⟩
  · obtain ⟨added, grown, size, -⟩ := pushSchema_reads schema arena.nodes
    exact ⟨added, congrArg (fun nodes => { arena with nodes }) grown, size, arena.intern_last schema,
      arena.read?_intern schema⟩
  · cases defined : registry.get? path symbol with
    | none => rw [Registry.symbol?_eq_none defined, Option.map_none, Option.map_none]
    | some schema =>
        obtain ⟨block, listed, -, rfl, named⟩ := Registry.block_of_get? defined
        rw [named, Option.map_some, Option.map_some, read?_root listed]
  · rw [size, Registry.nodes_eq, pushAll_size]
    rfl

end Arena

end Conform
