import Conform.Value.Basic

/-! The parts of a value, which are less high than the value. -/

namespace Conform

/-- What a check of the value can step into. -/
def Value.parts : Value → List Value
  | .array items => items
  | .object content => content.entries.map (·.2)
  | _ => []

/-- The value itself, or what is found inside it at some depth. -/
inductive Value.Holds : Value → Value → Prop
  | self (value : Value) : Holds value value
  | inside {value part inner : Value} (listed : part ∈ value.parts) (holds : Holds part inner) :
      Holds value inner

theorem Value.height_item {items : List Value} {item : Value} (listed : item ∈ items) :
    item.height ≤ heightOfItems items := by
  induction items with
  | nil => cases listed
  | cons first rest ih =>
      rw [heightOfItems]
      rcases List.mem_cons.mp listed with rfl | listed
      · exact Nat.le_max_left _ _
      · exact Nat.le_trans (ih listed) (Nat.le_max_right _ _)

theorem Value.heightOfEntries_eq (entries : List (String × Value)) :
    heightOfEntries entries = heightOfItems (entries.map (·.2)) := by
  induction entries with
  | nil => rfl
  | cons entry rest ih => rw [heightOfEntries, List.map_cons, heightOfItems, ih]

theorem Value.height_part {value part : Value} (listed : part ∈ value.parts) :
    part.height < value.height := by
  cases value with
  | array items => exact Nat.lt_succ_of_le (height_item listed)
  | object content =>
      obtain ⟨entries⟩ := content
      have height : (object ⟨entries⟩).height = heightOfItems (entries.map (·.2)) + 1 :=
        congrArg (· + 1) (heightOfEntries_eq entries)
      rw [height]
      exact Nat.lt_succ_of_le (height_item listed)
  | _ => cases listed

theorem Object.mem_of_get? {object : Object} {key : String} {part : Value}
    (found : object.get? key = some part) : (key, part) ∈ object.entries := by
  obtain ⟨before, after, entries, -⟩ := List.lookup_eq_some_iff.mp found
  simp [entries]

end Conform
