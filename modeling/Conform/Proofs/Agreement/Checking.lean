import Conform.Proofs.Agreement.Foreign
import Conform.Proofs.Validator.Paired

/-! Checks side by side.  Related schemas give the same outcome with the same
options, unless the left run reaches its limit. -/

namespace Conform.Agreement

open Run Resolver Validator

variable {core : Nat} {world : World} {id other : SchemaId} {shape otherShape : Shape}
  {options : Options} {value : Value} {object : Object}

/-- The same outcome on both sides, unless the left run reaches its limit. -/
def Concurs (core : Nat) (world : World) (run other : Run Outcome) : Prop :=
  Agrees core False world run other fun outcome otherOutcome _ => outcome = otherOutcome

/-- A limit on the left, or the same outcome on both sides. -/
theorem Concurs.outcome {run other : Run Outcome} (concurs : Concurs core world run other) :
    (∃ limit, (run world.left).1 = .error (.depthLimitExceeded limit)) ∨
      (run world.left).1 = (other world.right).1 := by
  cases concurs with
  | limited ran => exact .inl ⟨_, by rw [ran]⟩
  | excused excused _ => exact excused.elim
  | failed ran ran' => exact .inr (by rw [ran, ran'])
  | done ran ran' _ _ same => exact .inr (by rw [ran, ran', same])

theorem resolve_agrees (limit : Nat) (linked : world.Linked core) (related : world.ids id other) :
    Agrees core False world (resolve limit id) (resolve limit other)
      fun resolved otherResolved next => next.ids resolved otherResolved :=
  (resolveWithin_agrees limit limit limit limit world id other linked related).weaken
    fun excuse => Nat.lt_irrefl _ excuse

/-- Runs that agree, with no excuse for the right one. -/
def pairing (core : Nat) : Pairing where
  World := { world : World // world.Linked core }
  ids world := world.1.ids
  Extends world later := world.1.Extends later.1
  Related world _ _ run other post := Agrees core False world.1 run other fun answer otherAnswer next =>
    ∀ linked : next.Linked core, post answer otherAnswer ⟨next, linked⟩
  refl world := .refl world.1
  trans grown grown' := grown.trans grown'
  widen grown := grown.ids
  pure {world _ _ _ _ _} related := .pure world.2 fun _ => related
  fail _ := .fail
  bind part rest := .bind part fun answer other middle grown linked related =>
    rest answer other ⟨middle, linked⟩ grown (related linked)
  node {world _ _} related := (Agrees.node world.2 related).imp <| by
    rintro node otherNode _ - - ⟨-, -, same, rfl⟩
    exact fun _ => ⟨rfl, same⟩

theorem pairing_resolves (core limit : Nat) : (pairing core).Resolves limit where
  resolve {world _ _} related := (resolve_agrees limit world.2 related).imp fun _ _ _ _ _ pair _ => pair
  distribute {world _ _} related := ((distributeWithin_agrees world.2 related).weaken
    fun excuse => by omega).imp fun _ _ _ _ _ unions _ => unions
  flatten {world _ _} related := ((flattenWithin_agrees limit limit limit limit world.1 _ _ world.2
    related).weaken fun excuse => by omega).imp fun _ _ _ _ _ shapes _ => shapes
  foreignFields {world _ _} related := (foreignFields_agrees world.2 related (Nat.le_refl limit)).imp
    fun _ _ _ _ _ same _ => same

theorem Concurs.of_same (linked : world.Linked core) {run other : Run Outcome}
    (same : (pairing core).Same ⟨world, linked⟩ run other) : Concurs core world run other :=
  Agrees.imp same fun _ _ _ _ linked same => same linked

theorem checkShape_concurs (levels : Nat) (foreign : Option ForeignFields) (linked : world.Linked core)
    (related : Shape.Related world.ids shape otherShape) :
    Concurs core world (checkShape (checkLevels options levels) options object shape foreign)
      (checkShape (checkLevels options levels) options object otherShape foreign) :=
  have parts : PartsPaired (pairing core) (checkLevels options levels) (checkLevels options levels) :=
    checkLevels_paired (pairing core) (pairing_resolves core _) levels
  .of_same linked (checkShape_paired (pairing core) parts foreign related)

/-- Related schemas are checked with the same outcome. -/
theorem check_concurs (linked : world.Linked core) (related : world.ids id other) :
    Concurs core world (check options value id) (check options value other) :=
  have pair : (pairing core).ids ⟨world, linked⟩ id other := related
  .of_same linked (check_paired (pairing core) (pairing_resolves core _) pair value)

end Conform.Agreement
