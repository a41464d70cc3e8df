import Conform.Arena.Basic
import Conform.ForeignFields

/-!
The state of resolution, and computations on it.

Resolution adds nodes to the arena and remembers what it has derived. A
computation that fails keeps what it has added and remembered so far.
-/

namespace Conform

/-- What has been derived from nodes, by their identities. -/
structure Memo (α : Type) where
  entries : List (SchemaId × α)

namespace Memo

variable {α : Type}

def empty : Memo α := ⟨[]⟩

def find? (memo : Memo α) (id : SchemaId) : Option α :=
  memo.entries.lookup id

/-- Remembers a result unless there is one already. The result that is
remembered in the end counts. -/
def settle (memo : Memo α) (id : SchemaId) (result : α) : α × Memo α :=
  match memo.find? id with
  | some earlier => (earlier, memo)
  | none => (result, ⟨(id, result) :: memo.entries⟩)

end Memo

structure ResolverState where
  arena : Arena
  shapes : Memo Shape
  foreign : Memo ForeignFields
  /-- What indexed accesses stand for. -/
  projections : Memo SchemaId
  /-- The unions that combinators over unions stand for. -/
  distributions : Memo SchemaId

namespace ResolverState

def ofArena (arena : Arena) : ResolverState :=
  ⟨arena, .empty, .empty, .empty, .empty⟩

end ResolverState

/-- A computation that may extend the state, and may fail. -/
def Run (α : Type) : Type :=
  ResolverState → Except SchemaError α × ResolverState

namespace Run

variable {α β : Type}

def succeed (result : α) : Run α :=
  fun state => (.ok result, state)

def fail (error : SchemaError) : Run α :=
  fun state => (.error error, state)

/-- Continues after a success, in the state that it left. -/
def andThen (first : Run α) (next : α → Run β) : Run β :=
  fun state =>
    match first state with
    | (.ok result, after) => next result after
    | (.error error, after) => (.error error, after)

instance : Monad Run where
  pure := succeed
  bind := andThen

def ofExcept : Except SchemaError α → Run α
  | .ok result => succeed result
  | .error error => fail error

/-- Reads a part of the state. -/
def read (part : ResolverState → α) : Run α :=
  fun state => (.ok (part state), state)

def node (id : SchemaId) : Run Node :=
  fun state =>
    match state.arena.get? id with
    | some node => (.ok node, state)
    | none => (.error (.unknownId id), state)

def alloc (node : Node) : Run SchemaId :=
  fun state =>
    let (id, arena) := state.arena.alloc node
    (.ok id, { state with arena })

def keepShape (id : SchemaId) (shape : Shape) : Run Shape :=
  fun state =>
    let (kept, shapes) := state.shapes.settle id shape
    (.ok kept, { state with shapes })

def keepForeign (id : SchemaId) (fields : ForeignFields) : Run ForeignFields :=
  fun state =>
    let (kept, foreign) := state.foreign.settle id fields
    (.ok kept, { state with foreign })

def keepProjection (id projected : SchemaId) : Run SchemaId :=
  fun state =>
    let (kept, projections) := state.projections.settle id projected
    (.ok kept, { state with projections })

def keepDistribution (id union : SchemaId) : Run SchemaId :=
  fun state =>
    let (kept, distributions) := state.distributions.settle id union
    (.ok kept, { state with distributions })

end Run

end Conform
