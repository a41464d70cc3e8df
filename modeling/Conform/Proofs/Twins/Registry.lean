import Conform.Proofs.Arena.Blocks
import Conform.Proofs.Schema.References
import Conform.Proofs.Twins.Basic

/-! Twins from two registries.  Where the registries define the same, the blocks of the symbols correspond
node by node, wherever each of the arenas has them. -/

namespace Conform

namespace Registry

/-- The addresses that references lead to from a symbol, through the schemas on the way. -/
inductive Reaches (registry : Registry) (start : Address) : Address → Prop
  | start : Reaches registry start start
  | target {address next : Address} {schema : Schema} {target : String} (reaches : Reaches registry start address)
      (defined : registry.get? address.path address.symbol = some schema) (refers : schema.RefersTo target)
      (wellFormed : Address.ofTarget? target = some next) : Reaches registry start next

/-- Both registries define a symbol there with the same schema up to the numbers of declarations, or none
of them defines one. -/
def SameAt (left right : Registry) (address : Address) : Prop :=
  (left.get? address.path address.symbol).map Schema.unnumbered =
    (right.get? address.path address.symbol).map Schema.unnumbered

variable {left right : Registry} {needed : Address → Prop} {id other third : SchemaId} {block otherBlock : Block}

/-- A reference that one of them has there is there in the other. -/
theorem SameAt.refersTo {address : Address} {schema otherSchema : Schema} {target : String}
    (same : SameAt left right address) (defined : left.get? address.path address.symbol = some schema)
    (defined' : right.get? address.path address.symbol = some otherSchema) :
    schema.RefersTo target ↔ otherSchema.RefersTo target := by
  rw [SameAt, defined, defined', Option.map_some, Option.map_some, Option.some.injEq] at same
  rw [← Schema.refersTo_unnumbered, same, Schema.refersTo_unnumbered]

/-- It does not matter in which of the two references are followed. -/
theorem reaches_iff {start : Address} (same : ∀ address, left.Reaches start address → SameAt left right address)
    (address : Address) : left.Reaches start address ↔ right.Reaches start address := by
  constructor
  · intro reaches
    induction reaches with
    | start => exact .start
    | target reached defined refers wellFormed ih =>
        have here := same _ reached
        obtain ⟨_, defined', -⟩ := Option.map_eq_some_iff.mp (here.symm.trans (congrArg _ defined))
        exact .target ih defined' ((here.refersTo defined defined').mp refers) wellFormed
  · intro reaches
    induction reaches with
    | start => exact .start
    | target _ defined' refers wellFormed ih =>
        have here := same _ ih
        obtain ⟨_, defined, -⟩ := Option.map_eq_some_iff.mp (Eq.trans here (congrArg _ defined'))
        exact .target ih defined ((here.refersTo defined defined').mpr refers) wellFormed

/-- Nodes that correspond: the first ones of all arenas, and those at the same place in the blocks of one
address. -/
inductive Placed (needed : Address → Prop) (left right : Registry) : SchemaId → SchemaId → Prop
  | prelude {index : Nat} (early : index < 2) : Placed needed left right ⟨index⟩ ⟨index⟩
  | block {block otherBlock : Block} {offset : Nat} (listed : block ∈ left.blocks)
      (listed' : otherBlock ∈ right.blocks) (reached : needed block.address)
      (same : block.address = otherBlock.address) (inside : block.start + offset < block.stop)
      (inside' : otherBlock.start + offset < otherBlock.stop) :
      Placed needed left right ⟨block.start + offset⟩ ⟨otherBlock.start + offset⟩

theorem Placed.swap (placed : Placed needed left right id other) : Placed needed right left other id := by
  cases placed with
  | prelude early => exact .prelude early
  | block listed listed' reached same inside inside' =>
      exact .block listed' listed (same ▸ reached) same.symm inside' inside

theorem two_le_start (listed : block ∈ left.blocks) : 2 ≤ block.start :=
  (block_adds listed).1.size_le

/-- A node lies in one block only. -/
theorem block_unique {index : Nat} (listed : block ∈ left.blocks) (listed' : otherBlock ∈ left.blocks)
    (after : block.start ≤ index) (before : index < block.stop) (after' : otherBlock.start ≤ index)
    (before' : index < otherBlock.stop) : block = otherBlock := by
  rcases blocks_apart listed listed' with same | ahead | behind
  · exact same
  · have apart := ahead.stop_le
    omega
  · have apart := behind.stop_le
    omega

/-- An address has one block only. -/
theorem block_unique_of_address (listed : block ∈ left.blocks) (listed' : otherBlock ∈ left.blocks)
    (same : block.address = otherBlock.address) : block = otherBlock := by
  rcases blocks_apart listed listed' with same | ahead | behind
  · exact same
  · exact (ahead.differ same).elim
  · exact (behind.differ same.symm).elim

theorem Placed.unique (placed : Placed needed left right id other) (again : Placed needed left right id third) :
    other = third := by
  generalize key : id = key at again
  cases placed with
  | prelude early =>
      cases again with
      | prelude early' => exact key
      | block listed listed' reached same inside inside' =>
          have start := two_le_start listed
          cases key
          omega
  | @block block otherBlock offset listed listed' reached same inside inside' =>
      cases again with
      | prelude early' =>
          have start := two_le_start listed
          cases key
          omega
      | @block block₁ otherBlock₁ offset₁ listed₁ listed₁' reached₁ same₁ inside₁ inside₁' =>
          have index : block.start + offset = block₁.start + offset₁ := congrArg SchemaId.index key
          obtain rfl := block_unique listed listed₁ (Nat.le_add_right _ _) inside (by omega) (by omega)
          obtain rfl := block_unique_of_address listed' listed₁' (same.symm.trans same₁)
          obtain rfl := Nat.add_left_cancel index
          rfl

theorem placed_oneToOne (needed : Address → Prop) (left right : Registry) :
    Relator.BiUnique (Placed needed left right) :=
  ⟨fun _ _ _ placed again => placed.swap.unique again.swap, fun _ _ _ => Placed.unique⟩

open Arena

/-- Blocks of one address have the same nodes, if both registries define the same there. -/
theorem blocks_parallel (listed : block ∈ left.blocks) (listed' : otherBlock ∈ right.blocks)
    (address : block.address = otherBlock.address) (same : SameAt left right block.address) :
    ∃ count, Parallel block.start otherBlock.start count block.after otherBlock.after ∧
      Shifted block.start otherBlock.start count block.root otherBlock.root := by
  have defined' := get?_of_block listed'
  rw [← address] at defined'
  rw [SameAt, get?_of_block listed, defined', Option.map_some, Option.map_some, Option.some.injEq] at same
  have pushes : pushSchema block.schema = pushSchema otherBlock.schema := by
    rw [← pushSchema_unnumbered, same, pushSchema_unnumbered]
  have after : otherBlock.after = (pushSchema block.schema otherBlock.before).2 := by rw [Block.after, pushes]
  have root : otherBlock.root = (pushSchema block.schema otherBlock.before).1 := by rw [Block.root, pushes]
  obtain ⟨count, -, parallel, roots⟩ := pushSchema_onward block.schema (.none block.before otherBlock.before)
  exact ⟨count, after ▸ parallel, root ▸ roots⟩

theorem Placed.shifted {count : Nat} (listed : block ∈ left.blocks) (listed' : otherBlock ∈ right.blocks)
    (reached : needed block.address) (address : block.address = otherBlock.address)
    (parallel : Parallel block.start otherBlock.start count block.after otherBlock.after)
    (shifted : Shifted block.start otherBlock.start count id other) : Placed needed left right id other := by
  obtain ⟨offset, inside, rfl, rfl⟩ := shifted
  refine .block listed listed' reached address ?_ ?_
  · rw [Block.stop, parallel.size]
    omega
  · rw [Block.stop, parallel.otherSize]
    omega

/-- A node of a block, as the arena has it. -/
theorem get?_block {index : Nat} (listed : block ∈ left.blocks) (inside : index < block.stop) :
    ∃ node, block.after[index]? = some node ∧ (Arena.ofRegistry left).get? ⟨index⟩ = some node := by
  have found : block.after[index]? = some block.after[index] := Array.getElem?_eq_getElem inside
  exact ⟨_, found, (block_adds listed).2.kept _ _ found⟩

theorem get?_prelude (registry : Registry) {index : Nat} (early : index < 2) :
    ∃ node, (Arena.ofRegistry registry).get? ⟨index⟩ = some node ∧
      (#[.any, .literal .undefined] : Array Node)[index]? = some node := by
  have found : (#[.any, .literal .undefined] : Array Node)[index]? = some _ := Array.getElem?_eq_getElem early
  exact ⟨_, (Arena.ofRegistry_adds registry).1.kept _ _ found, found⟩

theorem placed_unfolds (same : ∀ address, needed address → SameAt left right address) :
    Unfolds (Arena.ofRegistry left) (Arena.ofRegistry right) (Placed needed left right) := by
  intro id other placed
  cases placed with
  | @prelude index early =>
      obtain ⟨node, found, here⟩ := get?_prelude left early
      obtain ⟨otherNode, found', here'⟩ := get?_prelude right early
      cases here.symm.trans here'
      refine ⟨node, node, found, found', .plain ?_⟩
      match index with
      | 0 | 1 =>
          cases here
          trivial
  | @block block otherBlock offset listed listed' reached address inside inside' =>
      obtain ⟨count, parallel, -⟩ := blocks_parallel listed listed' address (same _ reached)
      have short : offset < count := by
        rw [Block.stop, parallel.size] at inside
        omega
      obtain ⟨node, otherNode, found, found', related⟩ := parallel.same offset short
      exact ⟨node, otherNode, (block_adds listed).2.kept _ _ found, (block_adds listed').2.kept _ _ found',
        related.imp fun _ _ => Placed.shifted listed listed' reached address parallel⟩

/-- A reference in the arena occurs in the schema of its block. -/
theorem refersTo_of_placed {target : String} (placed : Placed needed left right id other)
    (found : (Arena.ofRegistry left).get? id = some (.reference target)) :
    ∃ block ∈ left.blocks, needed block.address ∧ block.schema.RefersTo target := by
  cases placed with
  | @prelude index early =>
      obtain ⟨node, here, known⟩ := get?_prelude left early
      cases found.symm.trans here
      match index with
      | 0 | 1 => cases known
  | @block block otherBlock offset listed listed' reached address inside inside' =>
      obtain ⟨node, here, again⟩ := get?_block listed inside
      cases found.symm.trans again
      refine ⟨block, listed, reached, ?_⟩
      rcases pushSchema_names block.schema (fun target refers => refers) block.before _ target here with
        earlier | refers
      · have before := (Array.getElem?_eq_some_iff.mp earlier).1
        exact (Nat.not_le_of_lt before (Nat.le_add_right _ _)).elim
      · exact refers

/-- A symbol that is needed is defined on both sides or on none. -/
theorem symbols_placed (address : Address) (reached : needed address) (same : SameAt left right address) :
    Option.Rel (Placed needed left right) ((Arena.ofRegistry left).symbol? address.path address.symbol)
      ((Arena.ofRegistry right).symbol? address.path address.symbol) := by
  cases defined : left.get? address.path address.symbol with
  | none =>
      have undefined := Option.map_eq_none_iff.mp (same.symm.trans (congrArg _ defined))
      rw [symbol?_eq_none defined, symbol?_eq_none undefined]
      exact .none
  | some schema =>
      obtain ⟨otherSchema, defined', -⟩ := Option.map_eq_some_iff.mp (same.symm.trans (congrArg _ defined))
      obtain ⟨block, listed, here, -, found⟩ := block_of_get? defined
      obtain ⟨otherBlock, listed', here', -, found'⟩ := block_of_get? defined'
      have addresses : block.address = otherBlock.address := here.trans here'.symm
      have here : block.address = address := here
      obtain ⟨count, parallel, roots⟩ := blocks_parallel listed listed' addresses (here ▸ same)
      rw [found, found']
      exact .some (Placed.shifted listed listed' (here ▸ reached) addresses parallel roots)

end Registry

open Registry

/-- Two registries that define the same wherever the symbol leads. -/
def Twins.ofRegistries {left right : Registry} {start : Address}
    (same : ∀ address, left.Reaches start address → SameAt left right address) : Twins where
  left := .ofArena (.ofRegistry left)
  right := .ofArena (.ofRegistry right)
  ids := Placed (left.Reaches start) left right
  oneToOne := placed_oneToOne _ left right
  unfolds := placed_unfolds same
  undefined := .prelude (Nat.lt_succ_self 1)
  targets placed found wellFormed := by
    obtain ⟨block, listed, reached, refers⟩ := refersTo_of_placed placed found
    have onward : left.Reaches start _ := .target reached (get?_of_block listed) refers wellFormed
    exact symbols_placed _ onward (same _ onward)
  shapes := .empty
  foreign := .empty
  projections := .empty
  distributions := .empty

end Conform
