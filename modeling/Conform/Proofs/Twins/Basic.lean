import Mathlib.Logic.Relator
import Conform.Proofs.Alike.Basic
import Conform.Proofs.Resolver.Following
import Conform.Proofs.Run.Pairing

/-! Twin states.  Some nodes of two states correspond one to one, and what the states hold and remember of
these is the same.  Runs that start from corresponding nodes do the same step by step and leave twins again,
however many other nodes each state has and whatever is known of those. -/

namespace Conform

namespace Memo

variable {ids : SchemaId → SchemaId → Prop} {α β : Type} {related wider : α → β → Prop} {memo : Memo α}
  {otherMemo : Memo β} {size otherSize : Nat} {id other : SchemaId} {result : α} {otherResult : β}

/-- Related identities have related entries, and only nodes that are there have any. -/
structure Paired (ids : SchemaId → SchemaId → Prop) (size otherSize : Nat) (related : α → β → Prop)
    (memo : Memo α) (otherMemo : Memo β) : Prop where
  find : ∀ {id other}, ids id other → Option.Rel related (memo.find? id) (otherMemo.find? other)
  issued : ∀ {id entry}, memo.find? id = some entry → id.index < size
  otherIssued : ∀ {other entry}, otherMemo.find? other = some entry → other.index < otherSize

namespace Paired

theorem empty : Paired ids size otherSize related .empty .empty :=
  ⟨fun _ => .none, nofun, nofun⟩

/-- A node is added on each side, of which nothing is known. -/
theorem alloc (paired : Paired ids size otherSize related memo otherMemo)
    (into : ∀ entry otherEntry, related entry otherEntry → wider entry otherEntry) :
    Paired (fun id other => ids id other ∨ id = ⟨size⟩ ∧ other = ⟨otherSize⟩) (size + 1) (otherSize + 1)
      wider memo otherMemo := by
  refine ⟨?_, fun known => Nat.lt_succ_of_lt (paired.issued known),
    fun known => Nat.lt_succ_of_lt (paired.otherIssued known)⟩
  rintro id other (pair | ⟨rfl, rfl⟩)
  · exact Shape.rel_imp into (paired.find pair)
  · have unknown : memo.find? ⟨size⟩ = none :=
      Option.eq_none_iff_forall_ne_some.mpr fun entry known => Nat.lt_irrefl _ (paired.issued known)
    have unknown' : otherMemo.find? ⟨otherSize⟩ = none :=
      Option.eq_none_iff_forall_ne_some.mpr fun entry known => Nat.lt_irrefl _ (paired.otherIssued known)
    rw [unknown, unknown']
    exact .none

/-- Related results are remembered of related nodes. -/
theorem settle (paired : Paired ids size otherSize related memo otherMemo) (oneToOne : Relator.BiUnique ids)
    (pair : ids id other) (issued : id.index < size) (otherIssued : other.index < otherSize)
    (results : related result otherResult) :
    related (memo.settle id result).1 (otherMemo.settle other otherResult).1 ∧
      Paired ids size otherSize related (memo.settle id result).2 (otherMemo.settle other otherResult).2 := by
  rcases Shape.rel_cases (paired.find pair) with ⟨unknown, unknown'⟩ | ⟨_, _, known, known', entries⟩
  · rw [settle_unknown unknown, settle_unknown unknown']
    refine ⟨results, fun {key otherKey} keys => ?_, fun {key entry} known => ?_, fun {key entry} known => ?_⟩
    · simp only [find?_cons, Relator.rel_eq oneToOne keys pair]
      split
      · exact .some results
      · exact paired.find keys
    · rw [find?_cons] at known
      split at known
      · next same => exact same ▸ issued
      · exact paired.issued known
    · rw [find?_cons] at known
      split at known
      · next same => exact same ▸ otherIssued
      · exact paired.otherIssued known
  · rw [settle_known known, settle_known known']
    exact ⟨entries, paired⟩

end Paired

end Memo

theorem Arena.AddsConcrete.refl (arena : Arena) : arena.AddsConcrete arena :=
  ⟨le_refl _, fun _ _ found => .inl found⟩

theorem Arena.AddsConcrete.trans {before middle after : Arena} (first : before.AddsConcrete middle)
    (second : middle.AddsConcrete after) : before.AddsConcrete after := by
  refine ⟨le_trans first.grown second.grown, fun id node found => ?_⟩
  rcases second.added id node found with earlier | concrete
  · exact first.added id node earlier
  · exact .inr concrete

theorem Arena.AddsConcrete.alloc (arena : Arena) {node : Node} (concrete : node.IsConcrete) :
    arena.AddsConcrete (arena.alloc node).2 := by
  refine ⟨Arena.le_alloc arena node, fun id other found => ?_⟩
  rcases Arena.get?_alloc_cases found with earlier | ⟨-, rfl⟩
  · exact .inl earlier
  · exact .inr concrete

/-- Two states and the nodes that correspond in them. -/
structure Twins where
  left : ResolverState
  right : ResolverState
  ids : SchemaId → SchemaId → Prop
  oneToOne : Relator.BiUnique ids
  unfolds : Arena.Unfolds left.arena right.arena ids
  undefined : ids Arena.undefined Arena.undefined
  /-- The symbols that references lead to are defined on both sides or on none. -/
  targets : ∀ {id other target address}, ids id other → left.arena.get? id = some (.reference target) →
    Address.ofTarget? target = some address → Option.Rel ids
      (left.arena.symbol? address.path address.symbol) (right.arena.symbol? address.path address.symbol)
  shapes : left.shapes.Paired ids left.arena.size right.arena.size (Shape.Related ids) right.shapes
  foreign : left.foreign.Paired ids left.arena.size right.arena.size Eq right.foreign
  projections : left.projections.Paired ids left.arena.size right.arena.size ids right.projections
  distributions : left.distributions.Paired ids left.arena.size right.arena.size ids right.distributions

namespace Twins

variable {twins later last : Twins} {id other : SchemaId} {node otherNode : Node}

/-- Twins later on. -/
structure Extends (twins later : Twins) : Prop where
  left : twins.left.arena.AddsConcrete later.left.arena
  right : twins.right.arena.AddsConcrete later.right.arena
  ids : ∀ id other, twins.ids id other → later.ids id other

theorem Extends.refl (twins : Twins) : twins.Extends twins :=
  ⟨.refl _, .refl _, fun _ _ pair => pair⟩

theorem Extends.trans (first : twins.Extends later) (second : later.Extends last) : twins.Extends last :=
  ⟨first.left.trans second.left, first.right.trans second.right,
    fun id other pair => second.ids id other (first.ids id other pair)⟩

theorem issued (twins : Twins) (pair : twins.ids id other) : id.index < twins.left.arena.size := by
  obtain ⟨_, _, found, -⟩ := twins.unfolds id other pair
  exact Arena.index_lt_size found

theorem otherIssued (twins : Twins) (pair : twins.ids id other) : other.index < twins.right.arena.size := by
  obtain ⟨_, _, -, found, -⟩ := twins.unfolds id other pair
  exact Arena.index_lt_size found

theorem contains_eq {visited otherVisited : List SchemaId} (twins : Twins)
    (listed : List.Forall₂ twins.ids visited otherVisited) (pair : twins.ids id other) :
    visited.contains id = otherVisited.contains other := by
  rw [Bool.eq_iff_iff, List.contains_iff_mem, List.contains_iff_mem]
  exact List.rel_mem twins.oneToOne pair listed

/-- Each side adds a node, and the two correspond. -/
def alloc (twins : Twins) (related : Node.Related twins.ids node otherNode) (concrete : node.IsConcrete) : Twins where
  left := { twins.left with arena := (twins.left.arena.alloc node).2 }
  right := { twins.right with arena := (twins.right.arena.alloc otherNode).2 }
  ids id other := twins.ids id other ∨ id = ⟨twins.left.arena.size⟩ ∧ other = ⟨twins.right.arena.size⟩
  oneToOne := by
    constructor
    · rintro id third other (pair | ⟨rfl, rfl⟩) (again | ⟨rfl, same⟩)
      · exact twins.oneToOne.1 pair again
      · exact (Nat.lt_irrefl _ (same ▸ twins.otherIssued pair)).elim
      · exact (Nat.lt_irrefl _ (twins.otherIssued again)).elim
      · rfl
    · rintro id other third (pair | ⟨rfl, rfl⟩) (again | ⟨same, rfl⟩)
      · exact twins.oneToOne.2 pair again
      · exact (Nat.lt_irrefl _ (same ▸ twins.issued pair)).elim
      · exact (Nat.lt_irrefl _ (twins.issued again)).elim
      · rfl
  unfolds := by
    rintro id other (pair | ⟨rfl, rfl⟩)
    · obtain ⟨node, otherNode, found, found', same⟩ := twins.unfolds id other pair
      exact ⟨node, otherNode, Arena.get?_mono (Arena.le_alloc _ _) found,
        Arena.get?_mono (Arena.le_alloc _ _) found', same.imp fun _ _ => .inl⟩
    · exact ⟨node, otherNode, Arena.get?_alloc_self _ _, Arena.get?_alloc_self _ _,
        related.imp fun _ _ => .inl⟩
  undefined := .inl twins.undefined
  targets := by
    intro id other target address pair found wellFormed
    rcases Arena.get?_alloc_cases found with found | ⟨-, rfl⟩
    · rcases pair with pair | ⟨rfl, -⟩
      · exact Shape.rel_imp (fun _ _ => .inl) (twins.targets pair found wellFormed)
      · exact (Nat.lt_irrefl _ (Arena.index_lt_size found)).elim
    · exact concrete.elim
  shapes := by
    simpa only [Arena.size_alloc] using twins.shapes.alloc fun _ _ shapes => shapes.imp fun _ _ => .inl
  foreign := by
    simpa only [Arena.size_alloc] using twins.foreign.alloc fun _ _ fields => fields
  projections := by
    simpa only [Arena.size_alloc] using twins.projections.alloc fun _ _ => .inl
  distributions := by
    simpa only [Arena.size_alloc] using twins.distributions.alloc fun _ _ => .inl

theorem extends_alloc (twins : Twins) (related : Node.Related twins.ids node otherNode)
    (concrete : node.IsConcrete) : twins.Extends (twins.alloc related concrete) :=
  ⟨.alloc _ concrete, .alloc _ (related.concrete.mp concrete), fun _ _ => .inl⟩

section

variable (twins : Twins) (pair : twins.ids id other)

include pair

/-- Both sides remember the same. -/
def keepShape {shape otherShape : Shape} (shapes : Shape.Related twins.ids shape otherShape) : Twins :=
  { twins with
    left := { twins.left with shapes := (twins.left.shapes.settle id shape).2 }
    right := { twins.right with shapes := (twins.right.shapes.settle other otherShape).2 }
    shapes := (twins.shapes.settle twins.oneToOne pair (twins.issued pair) (twins.otherIssued pair) shapes).2 }

def keepForeign (fields : ForeignFields) : Twins :=
  { twins with
    left := { twins.left with foreign := (twins.left.foreign.settle id fields).2 }
    right := { twins.right with foreign := (twins.right.foreign.settle other fields).2 }
    foreign := (twins.foreign.settle twins.oneToOne pair (twins.issued pair) (twins.otherIssued pair) rfl).2 }

variable {target otherTarget : SchemaId} (targets : twins.ids target otherTarget)

include targets

def keepProjection : Twins :=
  { twins with
    left := { twins.left with projections := (twins.left.projections.settle id target).2 }
    right := { twins.right with projections := (twins.right.projections.settle other otherTarget).2 }
    projections :=
      (twins.projections.settle twins.oneToOne pair (twins.issued pair) (twins.otherIssued pair) targets).2 }

def keepDistribution : Twins :=
  { twins with
    left := { twins.left with distributions := (twins.left.distributions.settle id target).2 }
    right := { twins.right with distributions := (twins.right.distributions.settle other otherTarget).2 }
    distributions :=
      (twins.distributions.settle twins.oneToOne pair (twins.issued pair) (twins.otherIssued pair) targets).2 }

end

end Twins

/-- The error without the identity of the node that inherits from itself. -/
def SchemaError.unlocated : SchemaError → SchemaError
  | .cyclicInheritance _ => .cyclicInheritance Arena.any
  | error => error

namespace Run

variable {α β γ δ : Type} {twins : Twins} {first : Run α} {second : Run β} {next : α → Run γ}
  {otherNext : β → Run δ} {post : α → β → Twins → Prop} {goal : γ → δ → Twins → Prop}
  {id other : SchemaId}

/-- Both runs fail with the same error, or both give answers and leave twins again. -/
inductive InStep (twins : Twins) (first : Run α) (second : Run β) (post : α → β → Twins → Prop) : Prop
  | failed {error otherError : SchemaError} {after otherAfter : ResolverState}
      (ran : first twins.left = (.error error, after))
      (ran' : second twins.right = (.error otherError, otherAfter))
      (same : error.unlocated = otherError.unlocated) : InStep twins first second post
  | done {answer : α} {otherAnswer : β} {later : Twins} (ran : first twins.left = (.ok answer, later.left))
      (ran' : second twins.right = (.ok otherAnswer, later.right)) (grown : twins.Extends later)
      (related : post answer otherAnswer later) : InStep twins first second post

namespace InStep

theorem pure {answer : α} {otherAnswer : β} (related : post answer otherAnswer twins) :
    InStep twins (pure answer : Run α) (pure otherAnswer : Run β) post :=
  .done rfl rfl (.refl twins) related

theorem fail {error otherError : SchemaError} (same : error.unlocated = otherError.unlocated) :
    InStep twins (fail error : Run α) (fail otherError : Run β) post :=
  .failed rfl rfl same

theorem imp {wider : α → β → Twins → Prop} (inStep : InStep twins first second post)
    (into : ∀ answer otherAnswer later, post answer otherAnswer later → wider answer otherAnswer later) :
    InStep twins first second wider := by
  cases inStep with
  | failed ran ran' same => exact .failed ran ran' same
  | done ran ran' grown related => exact .done ran ran' grown (into _ _ _ related)

theorem bind (part : InStep twins first second post)
    (rest : ∀ answer otherAnswer middle, twins.Extends middle → post answer otherAnswer middle →
      InStep middle (next answer) (otherNext otherAnswer) goal) :
    InStep twins (first >>= next) (second >>= otherNext) goal := by
  cases part with
  | failed ran ran' same => exact .failed (bind_error ran) (bind_error ran') same
  | done ran ran' grown related =>
      cases rest _ _ _ grown related with
      | failed again again' same => exact .failed ((bind_ok ran).trans again) ((bind_ok ran').trans again') same
      | done again again' grown' related' =>
          exact .done ((bind_ok ran).trans again) ((bind_ok ran').trans again') (grown.trans grown') related'

theorem node (pair : twins.ids id other) :
    InStep twins (node id) (node other) fun node otherNode later =>
      twins.left.arena.get? id = some node ∧ twins = later ∧ Node.Related twins.ids node otherNode := by
  obtain ⟨node, otherNode, found, found', same⟩ := twins.unfolds id other pair
  exact .done (node_apply found) (node_apply found') (.refl twins) ⟨found, rfl, same⟩

theorem read (part : ResolverState → α) (otherPart : ResolverState → β) :
    InStep twins (read part) (read otherPart) fun answer otherAnswer later =>
      part twins.left = answer ∧ otherPart twins.right = otherAnswer ∧ twins = later :=
  .done rfl rfl (.refl twins) ⟨rfl, rfl, rfl⟩

theorem alloc {node otherNode : Node} (related : Node.Related twins.ids node otherNode)
    (concrete : node.IsConcrete) :
    InStep twins (alloc node) (alloc otherNode) fun id other later => later.ids id other :=
  have ran : Run.alloc node twins.left = (.ok _, (twins.alloc related concrete).left) := rfl
  .done ran rfl (twins.extends_alloc related concrete) (.inr ⟨rfl, rfl⟩)

/-- The same answer, or the same error but for an identity. -/
theorem outcome {run other : Run α} (inStep : InStep twins run other fun answer otherAnswer _ => answer = otherAnswer) :
    (run twins.left).1.mapError SchemaError.unlocated = (other twins.right).1.mapError SchemaError.unlocated := by
  cases inStep with
  | failed ran ran' same => rw [ran, ran', Except.mapError, Except.mapError, same]
  | done ran ran' _ same => rw [ran, ran', same]

section

variable (pair : twins.ids id other)

include pair

theorem keepShape {shape otherShape : Shape} (shapes : Shape.Related twins.ids shape otherShape) :
    InStep twins (keepShape id shape) (keepShape other otherShape) fun kept otherKept later =>
      Shape.Related later.ids kept otherKept :=
  have ran : Run.keepShape id shape twins.left = (.ok _, (twins.keepShape pair shapes).left) := rfl
  .done ran rfl ⟨.refl _, .refl _, fun _ _ pair => pair⟩
    (twins.shapes.settle twins.oneToOne pair (twins.issued pair) (twins.otherIssued pair) shapes).1

theorem keepForeign (fields : ForeignFields) :
    InStep twins (keepForeign id fields) (keepForeign other fields) fun kept otherKept _ => kept = otherKept :=
  have ran : Run.keepForeign id fields twins.left = (.ok _, (twins.keepForeign pair fields).left) := rfl
  .done ran rfl ⟨.refl _, .refl _, fun _ _ pair => pair⟩
    (twins.foreign.settle twins.oneToOne pair (twins.issued pair) (twins.otherIssued pair) rfl).1

variable {target otherTarget : SchemaId} (targets : twins.ids target otherTarget)

include targets

theorem keepProjection :
    InStep twins (keepProjection id target) (keepProjection other otherTarget) fun kept otherKept later =>
      later.ids kept otherKept :=
  have ran : Run.keepProjection id target twins.left = (.ok _, (twins.keepProjection pair targets).left) := rfl
  .done ran rfl ⟨.refl _, .refl _, fun _ _ pair => pair⟩
    (twins.projections.settle twins.oneToOne pair (twins.issued pair) (twins.otherIssued pair) targets).1

theorem keepDistribution :
    InStep twins (keepDistribution id target) (keepDistribution other otherTarget) fun kept otherKept later =>
      later.ids kept otherKept :=
  have ran : Run.keepDistribution id target twins.left = (.ok _, (twins.keepDistribution pair targets).left) :=
    rfl
  .done ran rfl ⟨.refl _, .refl _, fun _ _ pair => pair⟩
    (twins.distributions.settle twins.oneToOne pair (twins.issued pair) (twins.otherIssued pair) targets).1

end

end InStep

/-- Runs in step relate two states in a way that sequences respect. -/
def twinning : Pairing where
  World := Twins
  ids := Twins.ids
  Extends := Twins.Extends
  Related twins _ _ run other post := InStep twins run other post
  refl := .refl
  trans := .trans
  widen grown := grown.ids
  pure := .pure
  fail _ := .fail rfl
  bind := .bind
  node pair := (InStep.node pair).imp fun _ _ _ found => found.2

end Run

end Conform
