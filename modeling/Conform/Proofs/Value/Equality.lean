import Mathlib.Data.List.Perm.Subperm
import Conform.Proofs.Value.Insertion

/-! Equality of values.  It asks what is found under each key and not in which order, so it is an
equality of maps, at any depth; only a NaN, which equals nothing, keeps it from being reflexive. -/

namespace Conform

namespace Binary64

variable {left middle right : Binary64}

theorem equal_iff : left.equal right = true ↔ (left.isNaN = false ∧ right.isNaN = false) ∧
    (left = right ∨ left.isZero = true ∧ right.isZero = true) := by
  have bits : left = right ↔ left.bits = right.bits := by
    cases left; cases right; simp
  simp [equal, bits]

theorem equal_symm (same : left.equal right = true) : right.equal left = true := by
  rw [equal_iff] at same ⊢
  exact ⟨same.1.symm, same.2.imp Eq.symm And.symm⟩

theorem equal_trans (first : left.equal middle = true) (second : middle.equal right = true) :
    left.equal right = true := by
  rw [equal_iff] at first second ⊢
  obtain ⟨⟨number, -⟩, rfl | ⟨zero, zero'⟩⟩ := first
  · exact second
  · obtain ⟨⟨-, number'⟩, rfl | ⟨-, zero''⟩⟩ := second
    · exact ⟨⟨number, number'⟩, .inr ⟨zero, zero'⟩⟩
    · exact ⟨⟨number, number'⟩, .inr ⟨zero, zero''⟩⟩

end Binary64

namespace Object

variable {left right : Object} {key : String} {part : Value}

/-- Of two objects of one size, the first has the keys of the second if it has no others. -/
theorem WellFormed.keys_perm (distinct : left.WellFormed) (size : left.size = right.size)
    (subset : left.keys ⊆ right.keys) : left.keys.Perm right.keys := by
  refine (List.Nodup.subperm distinct subset).perm_of_length_le (Nat.le_of_eq ?_)
  rw [← size_eq, ← size_eq, size]

end Object

namespace Value

variable {left middle right first second : Value} {object other : Object}

/-- Values are built from their parts. -/
theorem inductionOnParts {holds : Value → Prop}
    (step : ∀ value, (∀ part ∈ value.parts, holds part) → holds value) (value : Value) : holds value := by
  induction height : value.height using Nat.strongRecOn generalizing value with
  | ind height ih =>
      subst height
      exact step value fun part listed => ih _ (height_part listed) part rfl

theorem equalEntries_iff {entries : List (String × Value)} : equalEntries entries other = true ↔
    ∀ entry ∈ entries, ∃ part, other.get? entry.1 = some part ∧ entry.2.equal part = true := by
  induction entries with
  | nil => simp [equalEntries]
  | cons entry rest ih =>
      rw [equalEntries, Bool.and_eq_true, ih, List.forall_mem_cons]
      refine and_congr_left' ?_
      cases other.get? entry.1 <;> simp

theorem equalObjects_iff : equalObjects object other = true ↔ object.size = other.size ∧
    ∀ entry ∈ object.entries, ∃ part, other.get? entry.1 = some part ∧ entry.2.equal part = true := by
  obtain ⟨entries⟩ := object
  rw [equalObjects, Bool.and_eq_true, beq_iff_eq, equalEntries_iff]
  rfl

/-- Equal objects have the same keys, if the first repeats none. -/
theorem keys_perm_of_equal (distinct : object.WellFormed) (same : equalObjects object other = true) :
    object.keys.Perm other.keys := by
  obtain ⟨size, entries⟩ := equalObjects_iff.mp same
  refine distinct.keys_perm size fun key listed => ?_
  obtain ⟨part, found⟩ := Object.mem_keys.mp listed
  obtain ⟨part', found', -⟩ := entries _ (Object.mem_of_get? found)
  exact Object.mem_keys.mpr ⟨part', found'⟩

theorem equalItems_iff {items others : List Value} : equalItems items others = true ↔
    List.Forall₂ (fun item item' => item.equal item' = true) items others := by
  induction items generalizing others with
  | nil => cases others <;> simp [equalItems]
  | cons item rest ih => cases others <;> simp [equalItems, ih]

/-- How two values can be equal. -/
inductive Equals : Value → Value → Prop
  | plain {value : Value} (plain : value.IsPlain) (itself : value.equal value = true) : Equals value value
  | number {left right : Binary64} (same : left.equal right = true) : Equals (.number left) (.number right)
  | array {items others : List Value}
      (each : List.Forall₂ (fun item item' => item.equal item' = true) items others) :
      Equals (.array items) (.array others)
  | object {object other : Object} (size : object.size = other.size)
      (entries : ∀ entry ∈ object.entries, ∃ part, other.get? entry.1 = some part ∧ entry.2.equal part = true) :
      Equals (.object object) (.object other)

theorem Equals.equal (equals : Equals left right) : left.equal right = true := by
  cases equals with
  | plain _ itself => exact itself
  | number same => exact same
  | array each => exact equalItems_iff.mpr each
  | object size entries => exact equalObjects_iff.mpr ⟨size, entries⟩

theorem eq_of_plain (same : left.equal right = true) (plain : left.IsPlain)
    (other : ∀ number, left ≠ .number number) : left = right := by
  cases left <;> cases right <;> simp_all [equal, IsPlain]

theorem equals_of_equal (same : left.equal right = true) : Equals left right := by
  cases left with
  | array items =>
      cases right with
      | array others => exact .array (equalItems_iff.mp same)
      | _ => cases same
  | object object =>
      cases right with
      | object other =>
          obtain ⟨size, entries⟩ := equalObjects_iff.mp same
          exact .object size entries
      | _ => cases same
  | number number =>
      cases right with
      | number other => exact .number same
      | _ => cases same
  | _ =>
      cases eq_of_plain same trivial (fun _ => nofun)
      exact .plain trivial same

/-- No object in the value repeats a key. -/
def KeysDistinct (value : Value) : Prop :=
  ∀ object, value.Holds (.object object) → object.WellFormed

theorem keysDistinct_iff {value : Value} : value.KeysDistinct ↔
    (∀ object, value = .object object → object.WellFormed) ∧ ∀ part ∈ value.parts, part.KeysDistinct := by
  constructor
  · intro distinct
    exact ⟨fun object same => distinct object (same ▸ .self _),
      fun part listed object holds => distinct object (.inside listed holds)⟩
  · intro distinct object holds
    obtain ⟨here, parts⟩ := distinct
    cases holds with
    | self => exact here object rfl
    | inside listed holds => exact parts _ listed object holds

theorem equal_symm (distinct : left.KeysDistinct) (same : left.equal right = true) :
    right.equal left = true := by
  induction left using inductionOnParts generalizing right with
  | step left ih =>
      have back {part other : Value} (listed : part ∈ left.parts) (same : part.equal other = true) :
          other.equal part = true :=
        ih part listed ((keysDistinct_iff.mp distinct).2 part listed) same
      cases equals_of_equal same with
      | plain _ itself => exact itself
      | number same => exact Binary64.equal_symm same
      | @array items others each =>
          have inside := (List.forall₂_and_left _ _).mpr ⟨fun item (listed : item ∈ items) => listed, each⟩
          exact (Equals.array (inside.imp fun _ _ pair => back pair.1 pair.2).flip).equal
      | @object object other size entries =>
          have unique : object.WellFormed := distinct object (.self _)
          have keys : object.keys.Perm other.keys := keys_perm_of_equal unique same
          refine (Equals.object size.symm fun entry listed => ?_).equal
          obtain ⟨part, found⟩ := Object.mem_keys.mp (keys.mem_iff.mpr (Object.mem_keys_of_mem listed))
          obtain ⟨part', found', same⟩ := entries _ (Object.mem_of_get? found)
          have unique' : other.WellFormed := keys.nodup_iff.mp unique
          cases (unique'.get? listed).symm.trans found'
          exact ⟨part, found, back (List.mem_map_of_mem (Object.mem_of_get? found)) same⟩

theorem forall₂_trans {α : Type} {related : α → α → Prop} {items middles others : List α}
    (onward : ∀ item ∈ items, ∀ middle other, related item middle → related middle other → related item other)
    (each : List.Forall₂ related items middles) (each' : List.Forall₂ related middles others) :
    List.Forall₂ related items others := by
  induction each generalizing others with
  | nil =>
      cases each'
      exact .nil
  | cons first _ ih =>
      cases each' with
      | cons second rest =>
          obtain ⟨here, later⟩ := List.forall_mem_cons.mp onward
          exact .cons (here _ _ first second) (ih later rest)

theorem equal_trans (first : left.equal middle = true) (second : middle.equal right = true) :
    left.equal right = true := by
  induction left using inductionOnParts generalizing middle right with
  | step left ih =>
      cases equals_of_equal first with
      | plain => exact second
      | number same =>
          cases equals_of_equal second with
          | plain => exact first
          | number same' => exact Binary64.equal_trans same same'
      | array each =>
          cases equals_of_equal second with
          | plain plain => exact plain.elim
          | array each' => exact (Equals.array (forall₂_trans (fun item listed _ _ => ih item listed) each each')).equal
      | object size entries =>
          cases equals_of_equal second with
          | plain plain => exact plain.elim
          | object size' entries' =>
              refine (Equals.object (size.trans size') fun entry listed => ?_).equal
              obtain ⟨part, found, same⟩ := entries entry listed
              obtain ⟨part', found', same'⟩ := entries' _ (Object.mem_of_get? found)
              exact ⟨part', found', ih entry.2 (List.mem_map_of_mem listed) same same'⟩

/-- Either can stand for the other where values are compared. -/
def Interchangeable (first second : Value) : Prop :=
  ∀ other, first.equal other = second.equal other ∧ other.equal first = other.equal second

theorem Interchangeable.symm (alike : Interchangeable first second) : Interchangeable second first :=
  fun other => ⟨(alike other).1.symm, (alike other).2.symm⟩

theorem equalItems_interchange {items others : List Value} (alike : List.Forall₂ Interchangeable items others)
    (compared : List Value) : equalItems items compared = equalItems others compared ∧
      equalItems compared items = equalItems compared others := by
  induction alike generalizing compared with
  | nil => exact ⟨rfl, rfl⟩
  | cons here _ ih =>
      cases compared with
      | nil => exact ⟨rfl, rfl⟩
      | cons item rest => simp only [equalItems, here item, ih rest, and_self]

theorem equalObjects_interchange (size : object.size = other.size)
    (resembles : object.Resembles Interchangeable other) (compared : Object) :
    (equalObjects object compared = true → equalObjects other compared = true) ∧
      (equalObjects compared object = true → equalObjects compared other = true) := by
  simp only [equalObjects_iff, ← size]
  constructor
  · intro equal
    obtain ⟨same, entries⟩ := equal
    refine ⟨same, fun entry listed => ?_⟩
    obtain ⟨source, inside, alike⟩ := resembles.origin listed
    obtain ⟨part, found, equal⟩ := entries _ inside
    exact ⟨part, found, (alike part).1 ▸ equal⟩
  · intro equal
    obtain ⟨same, entries⟩ := equal
    refine ⟨same, fun entry listed => ?_⟩
    obtain ⟨part, found, equal⟩ := entries entry listed
    have under := resembles.under entry.1
    rw [found] at under
    cases found' : other.get? entry.1 with
    | none =>
        rw [found'] at under
        cases under
    | some part' =>
        rw [found'] at under
        cases under with
        | some alike => exact ⟨part', rfl, (alike entry.2).2 ▸ equal⟩

theorem Reordered.interchangeable (reordered : first.Reordered second) : Interchangeable first second := by
  induction first using inductionOnParts generalizing second with
  | step first ih =>
      cases reordered with
      | same => exact fun _ => ⟨rfl, rfl⟩
      | @array items others each =>
          have inside := (List.forall₂_and_left _ _).mpr ⟨fun item (listed : item ∈ items) => listed, each⟩
          have alike := inside.imp fun _ _ pair => ih _ pair.1 pair.2
          intro compared
          cases compared with
          | array compared => exact equalItems_interchange alike compared
          | _ => exact ⟨rfl, rfl⟩
      | @object object other distinct keys entries =>
          have related {key : String} {part otherPart : Value} (found : object.get? key = some part)
              (found' : other.get? key = some otherPart) : Interchangeable part otherPart :=
            ih part (List.mem_map_of_mem (Object.mem_of_get? found)) (entries found found')
          have size : object.size = other.size := by rw [Object.size_eq, Object.size_eq, keys.length_eq]
          have forth : object.Resembles Interchangeable other :=
            .of_keys (keys.nodup_iff.mp distinct) (fun _ => keys.mem_iff) related
          have back : other.Resembles Interchangeable object :=
            .of_keys distinct (fun _ => keys.symm.mem_iff) fun found found' => (related found' found).symm
          intro compared
          cases compared with
          | object compared =>
              obtain ⟨left, right⟩ := equalObjects_interchange size forth compared
              obtain ⟨left', right'⟩ := equalObjects_interchange size.symm back compared
              exact ⟨Bool.eq_iff_iff.mpr ⟨left, left'⟩, Bool.eq_iff_iff.mpr ⟨right, right'⟩⟩
          | _ => exact ⟨rfl, rfl⟩

end Value

namespace Object

variable {left right : Object} {key : String} {value : Value} {entries : List (String × Value)}

theorem equal_iff (distinct : left.WellFormed) (distinct' : right.WellFormed) : (left == right) = true ↔
    (∀ key, key ∈ left.keys ↔ key ∈ right.keys) ∧ ∀ key part other, left.get? key = some part →
      right.get? key = some other → (part == other) = true := by
  have unfolds : (left == right) = Value.equalObjects left right := rfl
  rw [unfolds]
  constructor
  · intro equal
    have keys := Value.keys_perm_of_equal distinct equal
    refine ⟨fun key => keys.mem_iff, fun key part other found found' => ?_⟩
    obtain ⟨_, again, same⟩ := (Value.equalObjects_iff.mp equal).2 _ (mem_of_get? found)
    cases found'.symm.trans again
    exact same
  · intro alike
    obtain ⟨keys, same⟩ := alike
    have perm : left.keys.Perm right.keys := (List.perm_ext_iff_of_nodup distinct distinct').mpr keys
    refine Value.equalObjects_iff.mpr ⟨?_, fun entry listed => ?_⟩
    · rw [size_eq, size_eq, perm.length_eq]
    · obtain ⟨other, found⟩ := mem_keys.mp ((keys entry.1).mp (mem_keys_of_mem listed))
      exact ⟨other, found, same _ _ _ (distinct.get? listed) found⟩

theorem mem_keys_ofList : key ∈ (ofList entries).keys ↔ key ∈ entries.map (·.1) := by
  rw [keys_ofList, List.mem_eraseDups]

theorem mem_of_ofList (listed : (key, value) ∈ (ofList entries).entries) : (key, value) ∈ entries := by
  have found := (wellFormed_ofList entries).get? listed
  rw [get?_ofList] at found
  obtain ⟨before, after, split, -⟩ := List.lookup_eq_some_iff.mp found
  exact List.mem_reverse.mp (split ▸ by simp)

theorem keysDistinct_ofList (parts : ∀ entry ∈ entries, entry.2.KeysDistinct) :
    (Value.object (ofList entries)).KeysDistinct := by
  refine Value.keysDistinct_iff.mpr ⟨?_, fun part listed => ?_⟩
  · intro object same
    cases same
    exact wellFormed_ofList entries
  · obtain ⟨entry, inside, rfl⟩ := List.mem_map.mp listed
    exact parts entry (mem_of_ofList inside)

end Object

/-- An object lists each key where it was inserted first, and has under it what was inserted last.
Two of them are equal if they have the same keys with equal values.  Where no key is repeated, and
inserts repeat none, equality of values is symmetric; it is transitive, and blind to the order of
keys at any depth. -/
theorem objects_keep_order_and_compare_content :
    (∀ entries : List (String × Value),
      (Object.ofList entries).keys = (entries.map (·.1)).eraseDups ∧
        (∀ key, (Object.ofList entries).get? key = entries.reverse.lookup key) ∧
        (∀ key, (Object.ofList entries).contains key = true ↔ key ∈ (Object.ofList entries).keys) ∧
        (Object.ofList entries).size = (Object.ofList entries).keys.length ∧
        ((∀ entry ∈ entries, entry.2.KeysDistinct) → (Value.object (Object.ofList entries)).KeysDistinct)) ∧
      (∀ entries others : List (String × Value), (Object.ofList entries == Object.ofList others) = true ↔
        (∀ key, key ∈ entries.map (·.1) ↔ key ∈ others.map (·.1)) ∧
          ∀ key value other, entries.reverse.lookup key = some value →
            others.reverse.lookup key = some other → (value == other) = true) ∧
      (∀ left right : Value, left.KeysDistinct → (left == right) = true → (right == left) = true) ∧
      (∀ left middle right : Value, (left == middle) = true → (middle == right) = true →
        (left == right) = true) ∧
      ∀ left right left' right' : Value, left.Reordered left' → right.Reordered right' →
        (left == right) = (left' == right') := by
  refine ⟨fun entries => ⟨Object.keys_ofList entries, Object.get?_ofList entries, fun key => ?_, ?_,
    Object.keysDistinct_ofList⟩, fun entries others => ?_, fun _ _ => Value.equal_symm,
    fun _ _ _ => Value.equal_trans, fun left right left' right' reordered reordered' => ?_⟩
  · rw [Object.contains, Option.isSome_iff_exists, Object.mem_keys]
  · exact Object.size_eq _
  · rw [Object.equal_iff (Object.wellFormed_ofList entries) (Object.wellFormed_ofList others)]
    simp only [Object.mem_keys_ofList, Object.get?_ofList]
  · exact (reordered.interchangeable right).1.trans (reordered'.interchangeable left').2

/-- Two objects with keys in different orders, one of them with a key that was inserted again. -/
theorem objects_keep_order_and_compare_content_nested :
    let inner := Object.ofList [("a", .null), ("b", .boolean true), ("a", .string "c")]
    let swapped := Object.ofList [("b", .boolean true), ("a", .string "c")]
    let left : Value := .object (.ofList [("d", .object inner)])
    let right : Value := .object (.ofList [("d", .object swapped)])
    inner.keys = ["a", "b"] ∧ inner.get? "a" = some (.string "c") ∧ (inner == swapped) = true ∧
      left.KeysDistinct ∧ left.Reordered right ∧ (left == right) = true ∧ (right == left) = true ∧
      (left == left) = true := by
  intro inner swapped left right
  obtain ⟨maps, equal, symmetric, transitive, blind⟩ := objects_keep_order_and_compare_content
  have plain : ∀ value : Value, value.parts = [] → (∀ object, value ≠ .object object) → value.KeysDistinct :=
    fun value none other => Value.keysDistinct_iff.mpr
      ⟨fun object same => (other object same).elim, fun part listed => by simp [none] at listed⟩
  have innermost : (Value.object inner).KeysDistinct := by
    refine (maps _).2.2.2.2 fun entry listed => ?_
    simp only [List.mem_cons, List.not_mem_nil, or_false] at listed
    rcases listed with rfl | rfl | rfl <;> exact plain _ rfl nofun
  have distinct : left.KeysDistinct := by
    refine (maps _).2.2.2.2 fun entry listed => ?_
    cases List.mem_singleton.mp listed
    exact innermost
  have moved : (Value.object inner).Reordered (.object swapped) := by
    refine .object (Object.wellFormed_ofList _) (by decide) fun {key part otherPart} found found' => ?_
    rcases List.mem_pair.mp (Object.mem_of_get? found) with ⟨⟨⟩⟩ | ⟨⟨⟩⟩ <;> cases found' <;> exact .same _
  have reordered : left.Reordered right := by
    refine .object (Object.wellFormed_ofList _) (by decide) fun {key part otherPart} found found' => ?_
    cases List.mem_singleton.mp (Object.mem_of_get? found)
    cases found'
    exact moved
  have itself : (left == left) = true := rfl
  have same : (left == right) = true := (blind left left left right (.same _) reordered).symm.trans itself
  exact ⟨(maps _).1, (maps _).2.1 "a", rfl, distinct, reordered, same, symmetric left right distinct same,
    transitive left right left same (symmetric left right distinct same)⟩

end Conform
