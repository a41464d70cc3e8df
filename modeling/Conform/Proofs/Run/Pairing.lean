import Conform.Proofs.Agreement.Related
import Conform.Proofs.Run.Logic

/-! Relations between runs on two states.  The states number their nodes differently; which identities
stand for each other is known and grows from step to step, and sequences respect the relation. -/

namespace Conform.Run

variable {α : Type}

/-- A world is how two states correspond at one time.  `post` says how the answers of two runs are
related in the world that these leave. -/
structure Pairing where
  World : Type
  ids : World → SchemaId → SchemaId → Prop
  Extends : World → World → Prop
  Related : World → {α β : Type} → Run α → Run β → (α → β → World → Prop) → Prop
  refl : ∀ world, Extends world world
  trans : ∀ {world middle last}, Extends world middle → Extends middle last → Extends world last
  widen : ∀ {world later}, Extends world later → ∀ id other, ids world id other → ids later id other
  pure : ∀ {world} {α β : Type} {answer : α} {other : β} {post : α → β → World → Prop},
    post answer other world → Related world (pure answer) (pure other) post
  fail : ∀ {world} {α β : Type} {post : α → β → World → Prop} (error : SchemaError),
    Related world (Run.fail error : Run α) (Run.fail error : Run β) post
  bind : ∀ {world} {α β γ δ : Type} {first : Run α} {second : Run β} {next : α → Run γ} {otherNext : β → Run δ}
    {post : α → β → World → Prop} {goal : γ → δ → World → Prop}, Related world first second post →
    (∀ answer other middle, Extends world middle → post answer other middle →
      Related middle (next answer) (otherNext other) goal) →
    Related world (first >>= next) (second >>= otherNext) goal
  node : ∀ {world id other}, ids world id other →
    Related world (Run.node id) (Run.node other) fun node otherNode later =>
      world = later ∧ Node.Related (ids world) node otherNode

namespace Pairing

variable (pairing : Pairing) {world : pairing.World}

/-- The same answer on both sides. -/
def Same (world : pairing.World) (run other : Run α) : Prop :=
  pairing.Related world run other fun answer otherAnswer _ => answer = otherAnswer

/-- Related identities on both sides. -/
def SameId (world : pairing.World) (run other : Run SchemaId) : Prop :=
  pairing.Related world run other fun id otherId later => pairing.ids later id otherId

/-- Shapes that differ in related identities only. -/
def SameShape (world : pairing.World) (run other : Run Shape) : Prop :=
  pairing.Related world run other fun shape otherShape later => Shape.Related (pairing.ids later) shape otherShape

theorem same (answer : α) : pairing.Same world (Pure.pure answer) (Pure.pure answer) :=
  pairing.pure rfl

end Pairing

end Conform.Run
