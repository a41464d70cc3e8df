import Conform.Proofs.Twins.Collecting
import Conform.Proofs.Twins.Registry
import Conform.Proofs.Validator.Reachable

/-! Symbols that a symbol has nothing to do with.  A check meets the nodes of the symbol and those that
references lead to, so that two registries which agree on these are the same to it, although everything else
differs and all nodes are numbered anew. -/

namespace Conform.Validator

open Run Resolver

variable {left right : Registry} {path symbol : String}

theorem validate_inStep (defined : (left.get? path symbol).isSome)
    (same : ∀ address, left.Reaches ⟨path, symbol⟩ address → left.SameAt right address)
    (options : Options) (value : Value) :
    InStep (Twins.ofRegistries same) (Resolver.lookup path symbol >>= check options value)
      (Resolver.lookup path symbol >>= check options value) fun outcome otherOutcome _ => outcome = otherOutcome := by
  obtain ⟨schema, defined⟩ := Option.isSome_iff_exists.mp defined
  obtain ⟨id, named⟩ := Arena.exists_symbol? defined
  have symbols := Registry.symbols_placed ⟨path, symbol⟩ (.start : left.Reaches ⟨path, symbol⟩ _) (same _ .start)
  rcases Shape.rel_cases symbols with ⟨missing, -⟩ | ⟨_, other, named, named', pair⟩
  · cases missing.symm.trans named
  · have looked : InStep (Twins.ofRegistries same) (Resolver.lookup path symbol) (Resolver.lookup path symbol)
        fun id other later => later.ids id other :=
      .done (lookup_defined named) (lookup_defined named') (.refl _) pair
    exact looked.bind fun _ _ _ _ pair => check_paired twinning (twinning_resolves _) pair value

/-- A fresh validator gives the same outcome, a failure with all its details and an error of the schema
alike, whatever the registry defines apart from the symbol and what references lead to from there.  Only the
identity of a node that inherits from itself may differ, as the nodes are numbered through the registry. -/
theorem unrelated_symbols_are_invisible (defined : (left.get? path symbol).isSome)
    (same : ∀ address, left.Reaches ⟨path, symbol⟩ address → left.SameAt right address)
    (options : Options) (value : Value) :
    ((ofRegistry left options).validate value path symbol).1.mapError SchemaError.unlocated =
      ((ofRegistry right options).validate value path symbol).1.mapError SchemaError.unlocated :=
  (validate_inStep defined same options value).outcome

/-- Items of a list, with a size and with a mark of a type that no module defines. -/
def linkedItems (numbers : List UInt32) : Schema :=
  .interface [⟨numbers.getD 0 0, "next", true, .reference "m/Items"⟩,
    ⟨numbers.getD 1 0, "size", false, .reference "m/Size"⟩,
    ⟨numbers.getD 2 0, "mark", true, .reference "m/Mark"⟩] none []

def sparse : Registry :=
  (Registry.empty.insert "m" "Items" (linkedItems [])).insert "m" "Size" (.number none)

/-- The same symbols among others. -/
def crowded : Registry :=
  (((Registry.empty.insert "a" "Size" (.array .string)).insert "m" "Items" (linkedItems [7, 8, 9])).insert
    "m" "Length" (.reference "m/Items")).insert "m" "Size" (.number none)

theorem sparse_reaches {address : Address} (reaches : sparse.Reaches ⟨"m", "Items"⟩ address) :
    address = ⟨"m", "Items"⟩ ∨ address = ⟨"m", "Size"⟩ ∨ address = ⟨"m", "Mark"⟩ := by
  induction reaches with
  | start => exact .inl rfl
  | @target address next schema target _ defined refers wellFormed ih =>
      have items : sparse.get? "m" "Items" = some (linkedItems []) := rfl
      have size : sparse.get? "m" "Size" = some (.number none) := rfl
      have mark : sparse.get? "m" "Mark" = none := rfl
      rcases ih with rfl | rfl | rfl
      · cases items.symm.trans defined
        cases refers with
        | inside listed refers =>
            have listed : _ ∈ [Schema.reference "m/Items", .reference "m/Size", .reference "m/Mark"] := listed
            simp only [List.mem_cons, List.not_mem_nil, or_false] at listed
            rcases listed with rfl | rfl | rfl <;> cases refers.of_reference
            · exact .inl (Option.some.inj wellFormed.symm)
            · exact .inr (.inl (Option.some.inj wellFormed.symm))
            · exact .inr (.inr (Option.some.inj wellFormed.symm))
      · cases size.symm.trans defined
        cases refers with
        | inside listed _ => cases listed
      · cases mark.symm.trans defined

theorem unrelated_symbols_are_invisible_crowded :
    (sparse.get? "m" "Items").isSome ∧
      (∀ address, sparse.Reaches ⟨"m", "Items"⟩ address → sparse.SameAt crowded address) ∧
      let value : Value := .object (.ofList [("next", .object (.ofList [("size", .string "x")])),
        ("size", .number (.ofNat 1))])
      ((ofRegistry sparse {}).validate value "m" "Items").1.mapError SchemaError.unlocated =
        ((ofRegistry crowded {}).validate value "m" "Items").1.mapError SchemaError.unlocated := by
  have defined : (sparse.get? "m" "Items").isSome := rfl
  have same : ∀ address, sparse.Reaches ⟨"m", "Items"⟩ address → sparse.SameAt crowded address := by
    intro address reaches
    rcases sparse_reaches reaches with rfl | rfl | rfl <;> rfl
  exact ⟨defined, same, unrelated_symbols_are_invisible defined same {} _⟩

/-- A node that inherits from itself has another identity where another symbol comes first. -/
example :
    let loop : Registry := Registry.empty.insert "m" "A" (.interface [] none [⟨0, .reference "m/A"⟩])
    ((ofRegistry loop {}).validate .null "m" "A").1 = .error (.cyclicInheritance ⟨3⟩) ∧
      ((ofRegistry (loop.insert "a" "B" .string) {}).validate .null "m" "A").1 =
        .error (.cyclicInheritance ⟨4⟩) :=
  ⟨rfl, rfl⟩

end Conform.Validator
