import Mathlib.Data.List.Pairwise
import Conform.Proofs.Arena.Ordered
import Conform.Registry.Address

/-! Where the symbols of a registry lie in its arena.  The nodes of a symbol are next to each other, and
the nodes of different symbols are apart. -/

namespace Conform

/-- A defined symbol, and the nodes that are there before its own are added. -/
structure Block where
  address : Address
  schema : Schema
  before : Array Node

namespace Block

def start (block : Block) : Nat :=
  block.before.size

/-- The nodes up to the last one of the symbol. -/
def after (block : Block) : Array Node :=
  (Arena.pushSchema block.schema block.before).2

def stop (block : Block) : Nat :=
  block.after.size

def root (block : Block) : SchemaId :=
  (Arena.pushSchema block.schema block.before).1

/-- Two blocks of different symbols, the one ahead of the other. -/
structure Precedes (block other : Block) : Prop where
  differ : block.address ≠ other.address
  stop_le : block.stop ≤ other.start

end Block

/-- The blocks of symbols that are added one after the other. -/
def blocksOf : List (String × String × Schema) → Array Node → List Block
  | [], _ => []
  | (path, symbol, schema) :: rest, nodes =>
      ⟨⟨path, symbol⟩, schema, nodes⟩ :: blocksOf rest (Arena.pushSchema schema nodes).2

def pushAll (symbols : List (String × String × Schema)) (nodes : Array Node) : Array Node :=
  symbols.foldl (fun nodes entry => (Arena.pushSchema entry.2.2 nodes).2) nodes

def Registry.blocks (registry : Registry) : List Block :=
  blocksOf registry.symbols #[.any, .literal .undefined]

theorem Table.get?_of_mem {α : Type} {table : Table α} {name : String} {value : α}
    (listed : (name, value) ∈ table.entries) : table.get? name = some value := by
  obtain ⟨before, after, split⟩ := List.append_of_mem listed
  refine List.lookup_eq_some_iff.mpr ⟨before, after, split, fun entry earlier => ?_⟩
  have sorted := table.sorted
  rw [split] at sorted
  have below := (List.pairwise_append.mp sorted).2.2 entry earlier _ (List.mem_cons_self ..)
  exact bne_iff_ne.mpr fun same => String.lt_irrefl _ (same ▸ below)

namespace Registry

variable {registry : Registry} {path symbol : String} {schema : Schema}

theorem get?_of_mem (listed : (path, symbol, schema) ∈ registry.symbols) :
    registry.get? path symbol = some schema := by
  obtain ⟨⟨_, table⟩, module, entry⟩ := List.mem_flatMap.mp listed
  obtain ⟨_, inside, same⟩ := List.mem_map.mp entry
  cases same
  exact Option.bind_eq_some_iff.mpr ⟨table, Table.get?_of_mem module, Table.get?_of_mem inside⟩

theorem symbols_distinct (registry : Registry) : registry.symbols.Pairwise fun first second =>
    (⟨first.1, first.2.1⟩ : Address) ≠ ⟨second.1, second.2.1⟩ := by
  refine List.pairwise_flatMap.mpr ⟨fun entry _ => ?_, ?_⟩
  · refine List.pairwise_map.mpr (entry.2.sorted.imp fun {first second} below same => ?_)
    have symbols : first.1 = second.1 := congrArg Address.symbol same
    exact String.lt_irrefl _ (symbols ▸ below)
  · refine registry.modules.sorted.imp fun {first second} below => ?_
    intro entry listed other listed' same
    obtain ⟨_, -, rfl⟩ := List.mem_map.mp listed
    obtain ⟨_, -, rfl⟩ := List.mem_map.mp listed'
    have paths : first.1 = second.1 := congrArg Address.path same
    exact String.lt_irrefl _ (paths ▸ below)

end Registry

namespace Arena

variable {registry : Registry} {path symbol : String} {schema : Schema} {id : SchemaId} {block : Block}
  {symbols : List (String × String × Schema)} {nodes : Array Node}

theorem mem_blocksOf (listed : block ∈ blocksOf symbols nodes) :
    (block.address.path, block.address.symbol, block.schema) ∈ symbols := by
  induction symbols generalizing nodes with
  | nil => cases listed
  | cons entry rest ih =>
      rcases List.mem_cons.mp listed with rfl | later
      · exact List.mem_cons_self ..
      · exact List.mem_cons_of_mem _ (ih later)

theorem pushSchema_adds (schema : Schema) (ordered : Ordered nodes) : Adds nodes (pushSchema schema nodes).2 :=
  (pushSchema_issues schema [] nodes ordered fun _ listed => nomatch listed).1

theorem Adds.refl (ordered : Ordered nodes) : Adds nodes nodes :=
  ⟨fun _ _ found => found, Nat.le_refl _, ordered⟩

theorem pushAll_adds (symbols : List (String × String × Schema)) (ordered : Ordered nodes) :
    Adds nodes (pushAll symbols nodes) := by
  induction symbols generalizing nodes with
  | nil => exact .refl ordered
  | cons entry rest ih =>
      have adds := pushSchema_adds entry.2.2 ordered
      exact adds.trans (ih adds.ordered)

/-- A block lies between the first nodes and the last. -/
theorem blocksOf_adds (ordered : Ordered nodes) (listed : block ∈ blocksOf symbols nodes) :
    Adds nodes block.before ∧ Adds block.after (pushAll symbols nodes) := by
  induction symbols generalizing nodes with
  | nil => cases listed
  | cons entry rest ih =>
      have adds := pushSchema_adds entry.2.2 ordered
      rcases List.mem_cons.mp listed with rfl | later
      · exact ⟨.refl ordered, pushAll_adds rest adds.ordered⟩
      · obtain ⟨before, after⟩ := ih adds.ordered later
        exact ⟨adds.trans before, after⟩

theorem blocksOf_pairwise (ordered : Ordered nodes) (distinct : symbols.Pairwise fun first second =>
    (⟨first.1, first.2.1⟩ : Address) ≠ ⟨second.1, second.2.1⟩) :
    (blocksOf symbols nodes).Pairwise Block.Precedes := by
  induction symbols generalizing nodes with
  | nil => exact .nil
  | cons entry rest ih =>
      obtain ⟨differ, distinct⟩ := List.pairwise_cons.mp distinct
      have adds := pushSchema_adds entry.2.2 ordered
      refine List.pairwise_cons.mpr ⟨fun block later => ⟨?_, ?_⟩, ih adds.ordered distinct⟩
      · exact differ _ (mem_blocksOf later)
      · exact (blocksOf_adds adds.ordered later).1.size_le

theorem pushSymbols_blocks (path : String) (symbols : List (String × Schema)) (nodes : Array Node) :
    (pushSymbols symbols nodes).1.map (fun (symbol, id) => ((⟨path, symbol⟩ : Address), id)) =
        (blocksOf (symbols.map fun (symbol, schema) => (path, symbol, schema)) nodes).map
          (fun block => (block.address, block.root)) ∧
      (pushSymbols symbols nodes).2 = pushAll (symbols.map fun (symbol, schema) => (path, symbol, schema)) nodes := by
  induction symbols generalizing nodes with
  | nil => exact ⟨rfl, rfl⟩
  | cons entry rest ih =>
      obtain ⟨symbol, schema⟩ := entry
      obtain ⟨roots, last⟩ := ih (pushSchema schema nodes).2
      exact ⟨congrArg _ roots, last⟩

theorem blocksOf_append (symbols more : List (String × String × Schema)) (nodes : Array Node) :
    blocksOf (symbols ++ more) nodes = blocksOf symbols nodes ++ blocksOf more (pushAll symbols nodes) := by
  induction symbols generalizing nodes with
  | nil => rfl
  | cons entry rest ih => exact congrArg _ (ih _)

/-- The symbols of the arena are those of the blocks, with their roots. -/
theorem pushModules_blocks (modules : List (String × Table Schema)) (nodes : Array Node) :
    (pushModules modules nodes).1.flatMap
        (fun (path, symbols) => symbols.map fun (symbol, id) => ((⟨path, symbol⟩ : Address), id)) =
        (blocksOf (modules.flatMap fun (path, table) =>
            table.entries.map fun (symbol, schema) => (path, symbol, schema)) nodes).map
          (fun block => (block.address, block.root)) ∧
      (pushModules modules nodes).2 = pushAll (modules.flatMap fun (path, table) =>
          table.entries.map fun (symbol, schema) => (path, symbol, schema)) nodes := by
  induction modules generalizing nodes with
  | nil => exact ⟨rfl, rfl⟩
  | cons entry rest ih =>
      obtain ⟨path, table⟩ := entry
      obtain ⟨roots, last⟩ := pushSymbols_blocks path table.entries nodes
      obtain ⟨others, final⟩ := ih (pushSymbols table.entries nodes).2
      rw [List.flatMap_cons, blocksOf_append, List.map_append, ← roots, ← last, ← others, pushAll,
        List.foldl_append, ← pushAll, ← pushAll, ← last, ← final]
      exact ⟨rfl, rfl⟩

end Arena

namespace Registry

open Arena

variable {registry : Registry} {path symbol : String} {schema : Schema} {id : SchemaId} {block other : Block}

theorem nodes_eq (registry : Registry) :
    (Arena.ofRegistry registry).nodes = pushAll registry.symbols #[.any, .literal .undefined] :=
  (pushModules_blocks registry.modules.entries _).2

theorem get?_of_block (listed : block ∈ registry.blocks) :
    registry.get? block.address.path block.address.symbol = some block.schema :=
  get?_of_mem (mem_blocksOf listed)

/-- The nodes of a block stay what they are. -/
theorem block_adds (listed : block ∈ registry.blocks) :
    Adds #[.any, .literal .undefined] block.before ∧ Adds block.after (Arena.ofRegistry registry).nodes := by
  rw [nodes_eq]
  exact blocksOf_adds prelude_ordered listed

/-- Two blocks are the same, or one of them is ahead. -/
theorem blocks_apart (listed : block ∈ registry.blocks) (listed' : other ∈ registry.blocks) :
    block = other ∨ block.Precedes other ∨ other.Precedes block := by
  let apart (first second : Block) : Prop := first = second ∨ first.Precedes second ∨ second.Precedes first
  have symmetric : Std.Symm apart := ⟨fun _ _ => Or.imp Eq.symm Or.symm⟩
  have pairwise : registry.blocks.Pairwise apart :=
    (blocksOf_pairwise prelude_ordered registry.symbols_distinct).imp fun ahead => .inr (.inl ahead)
  exact pairwise.forall_of_forall (fun _ _ => .inl rfl) listed listed'

/-- A symbol of the arena is the root of its block. -/
theorem block_of_symbol? (found : (Arena.ofRegistry registry).symbol? path symbol = some id) :
    ∃ block ∈ registry.blocks, block.address = ⟨path, symbol⟩ ∧ block.root = id := by
  obtain ⟨symbols, known, entry⟩ := Option.bind_eq_some_iff.mp found
  obtain ⟨before, after, modules, -⟩ := List.lookup_eq_some_iff.mp known
  obtain ⟨earlier, later, names, -⟩ := List.lookup_eq_some_iff.mp entry
  have listed : ((⟨path, symbol⟩ : Address), id) ∈ (Arena.ofRegistry registry).symbols.flatMap
      fun (path, symbols) => symbols.map fun (symbol, id) => ((⟨path, symbol⟩ : Address), id) :=
    List.mem_flatMap.mpr ⟨(path, symbols), by simp [modules], by simp [names]⟩
  have roots := (pushModules_blocks registry.modules.entries #[.any, .literal .undefined]).1
  obtain ⟨block, inside, same⟩ := List.mem_map.mp (roots ▸ listed)
  obtain ⟨address, root⟩ := Prod.mk.inj same
  exact ⟨block, inside, address, root⟩

theorem block_of_get? (defined : registry.get? path symbol = some schema) :
    ∃ block ∈ registry.blocks, block.address = ⟨path, symbol⟩ ∧ block.schema = schema ∧
      (Arena.ofRegistry registry).symbol? path symbol = some block.root := by
  obtain ⟨id, found⟩ := exists_symbol? defined
  obtain ⟨block, listed, address, rfl⟩ := block_of_symbol? found
  have known := get?_of_block listed
  rw [address] at known
  exact ⟨block, listed, address, Option.some.inj (known.symm.trans defined), found⟩

theorem symbol?_eq_none (undefined : registry.get? path symbol = none) :
    (Arena.ofRegistry registry).symbol? path symbol = none := by
  cases found : (Arena.ofRegistry registry).symbol? path symbol with
  | none => rfl
  | some id =>
      obtain ⟨block, listed, address, -⟩ := block_of_symbol? found
      have known := get?_of_block listed
      rw [address] at known
      cases undefined.symm.trans known

end Registry

end Conform
