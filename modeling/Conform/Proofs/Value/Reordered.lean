import Mathlib.Data.List.Forall2
import Mathlib.Data.List.Nodup
import Conform.Proofs.Value.Parts

/-! Values that differ in the order of keys.  Two objects may list the same keys in different
orders, and so may the objects among their parts; what they have under a key differs in nothing but
such an order again. -/

namespace Conform

namespace Object

variable {object other : Object} {key : String} {part : Value} {values : Value → Value → Prop}

theorem mem_keys_of_mem (listed : (key, part) ∈ object.entries) : key ∈ object.keys :=
  List.mem_map_of_mem listed

theorem mem_keys : key ∈ object.keys ↔ ∃ part, object.get? key = some part := by
  constructor
  · intro listed
    cases found : object.get? key with
    | some part => exact ⟨part, rfl⟩
    | none =>
        obtain ⟨⟨_, part⟩, inside, rfl⟩ := List.mem_map.mp listed
        have differ := List.lookup_eq_none_iff.mp found _ inside
        simp at differ
  · rintro ⟨part, found⟩
    exact mem_keys_of_mem (mem_of_get? found)

theorem WellFormed.get? (distinct : object.WellFormed) (listed : (key, part) ∈ object.entries) :
    object.get? key = some part := by
  obtain ⟨found, here⟩ := mem_keys.mp (mem_keys_of_mem listed)
  have same := List.inj_on_of_nodup_map distinct (mem_of_get? here) listed rfl
  rw [here, (Prod.mk.inj same).2]

/-- Under each key the two have related values or none, and each entry of the second comes from one
of the first. -/
structure Resembles (values : Value → Value → Prop) (object other : Object) : Prop where
  under : ∀ key, Option.Rel values (object.get? key) (other.get? key)
  origin : ∀ {key part}, (key, part) ∈ other.entries →
    ∃ source, (key, source) ∈ object.entries ∧ values source part

theorem Resembles.keys (resembles : object.Resembles values other) (listed : key ∈ other.keys) :
    key ∈ object.keys := by
  obtain ⟨⟨_, part⟩, inside, rfl⟩ := List.mem_map.mp listed
  obtain ⟨source, present, -⟩ := resembles.origin inside
  exact mem_keys_of_mem present

theorem Resembles.refl (values_refl : ∀ value, values value value) (object : Object) :
    object.Resembles values object where
  under key := by
    cases object.get? key with
    | none => exact .none
    | some part => exact .some (values_refl part)
  origin {_ part} listed := ⟨part, listed, values_refl part⟩

theorem Resembles.of_keys (distinct : other.WellFormed) (keys : ∀ key, key ∈ object.keys ↔ key ∈ other.keys)
    (entries : ∀ {key part otherPart}, object.get? key = some part → other.get? key = some otherPart →
      values part otherPart) : object.Resembles values other where
  under key := by
    cases found : object.get? key with
    | none =>
        cases found' : other.get? key with
        | none => exact .none
        | some otherPart =>
            obtain ⟨part, present⟩ := mem_keys.mp ((keys key).mpr (mem_keys.mpr ⟨otherPart, found'⟩))
            cases found.symm.trans present
    | some part =>
        obtain ⟨otherPart, found'⟩ := mem_keys.mp ((keys key).mp (mem_keys.mpr ⟨part, found⟩))
        rw [found']
        exact .some (entries found found')
  origin {key part} listed := by
    obtain ⟨source, found⟩ := mem_keys.mp ((keys key).mpr (mem_keys_of_mem listed))
    exact ⟨source, mem_of_get? found, entries found (distinct.get? listed)⟩

end Object

namespace Value

variable {first second : Value} {values : Value → Value → Prop}

/-- Neither an array nor an object. -/
def IsPlain : Value → Prop
  | .array _ | .object _ => False
  | _ => True

/-- The same value, or two containers of one kind with related parts at corresponding places. -/
inductive Resembles (values : Value → Value → Prop) : Value → Value → Prop
  | plain {value : Value} (plain : value.IsPlain) : Resembles values value value
  | array {items others : List Value} (each : List.Forall₂ values items others) :
      Resembles values (.array items) (.array others)
  | object {object other : Object} (entries : object.Resembles values other) :
      Resembles values (.object object) (.object other)

theorem Resembles.refl (values_refl : ∀ value, values value value) (value : Value) :
    value.Resembles values value := by
  cases value with
  | array items => exact .array (List.forall₂_same.mpr fun item _ => values_refl item)
  | object object => exact .object (.refl values_refl object)
  | _ => exact .plain trivial

/-- The second value is the first with the keys of its objects in another order, at any depth. -/
inductive Reordered : Value → Value → Prop
  | same (value : Value) : Reordered value value
  | array {items others : List Value} (each : List.Forall₂ Reordered items others) :
      Reordered (.array items) (.array others)
  | object {object other : Object} (distinct : object.WellFormed) (keys : object.keys.Perm other.keys)
      (entries : ∀ {key : String} {part otherPart : Value}, object.get? key = some part →
        other.get? key = some otherPart → Reordered part otherPart) :
      Reordered (.object object) (.object other)

theorem Reordered.resembles (reordered : first.Reordered second) : first.Resembles Reordered second := by
  cases reordered with
  | same => exact .refl .same first
  | array each => exact .array each
  | object distinct keys entries =>
      exact .object (.of_keys (keys.nodup_iff.mp distinct) (fun _ => keys.mem_iff) entries)

theorem Reordered.resembles_flip (reordered : first.Reordered second) :
    second.Resembles (flip Reordered) first := by
  cases reordered with
  | same => exact .refl .same first
  | array each => exact .array each.flip
  | object distinct keys entries =>
      exact .object (.of_keys distinct (fun _ => keys.symm.mem_iff) fun found found' => entries found' found)

end Value

end Conform
