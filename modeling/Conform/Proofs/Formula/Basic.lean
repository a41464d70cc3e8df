import Mathlib.Data.List.Forall2
import Conform.Arena.Node

/-! Nested unions and intersections as formulas.  A union is a disjunction and an
intersection a conjunction; the leaves are the schemas below that are neither. -/

namespace Conform

inductive Formula where
  | leaf (id : SchemaId)
  | any (parts : List Formula)
  | all (parts : List Formula)

namespace Formula

mutual

/-- Whether the formula holds, given which leaves accept. -/
def eval (accepts : SchemaId → Bool) : Formula → Bool
  | .leaf id => accepts id
  | .any parts => evalAny accepts parts
  | .all parts => evalAll accepts parts
termination_by structural formula => formula

def evalAny (accepts : SchemaId → Bool) : List Formula → Bool
  | [] => false
  | part :: rest => eval accepts part || evalAny accepts rest
termination_by structural parts => parts

def evalAll (accepts : SchemaId → Bool) : List Formula → Bool
  | [] => true
  | part :: rest => eval accepts part && evalAll accepts rest
termination_by structural parts => parts

end

mutual

def leaves : Formula → List SchemaId
  | .leaf id => [id]
  | .any parts | .all parts => leavesOf parts
termination_by structural formula => formula

def leavesOf : List Formula → List SchemaId
  | [] => []
  | part :: rest => leaves part ++ leavesOf rest
termination_by structural parts => parts

end

/-- A union or intersection, not a leaf. -/
def IsCompound : Formula → Prop
  | .leaf _ => False
  | _ => True

def parts : Formula → List Formula
  | .leaf _ => []
  | .any parts | .all parts => parts

@[simp] theorem eval_leaf (accepts : SchemaId → Bool) (id : SchemaId) :
    (leaf id).eval accepts = accepts id :=
  rfl

@[simp] theorem eval_any (accepts : SchemaId → Bool) (parts : List Formula) :
    (any parts).eval accepts = parts.any (eval accepts) := by
  change evalAny accepts parts = _
  induction parts with
  | nil => rfl
  | cons part rest ih => rw [evalAny, ih, List.any_cons]

@[simp] theorem eval_all (accepts : SchemaId → Bool) (parts : List Formula) :
    (all parts).eval accepts = parts.all (eval accepts) := by
  change evalAll accepts parts = _
  induction parts with
  | nil => rfl
  | cons part rest ih => rw [evalAll, ih, List.all_cons]

theorem leavesOf_eq (parts : List Formula) : leavesOf parts = parts.flatMap leaves := by
  induction parts with
  | nil => rfl
  | cons part rest ih => rw [leavesOf, ih, List.flatMap_cons]

@[simp] theorem leaves_leaf (id : SchemaId) : (leaf id).leaves = [id] :=
  rfl

@[simp] theorem leaves_any (parts : List Formula) : (any parts).leaves = parts.flatMap leaves :=
  leavesOf_eq parts

@[simp] theorem leaves_all (parts : List Formula) : (all parts).leaves = parts.flatMap leaves :=
  leavesOf_eq parts

theorem IsCompound.leaves_eq {formula : Formula} (compound : formula.IsCompound) :
    formula.leaves = formula.parts.flatMap leaves := by
  cases formula with
  | leaf id => exact compound.elim
  | any parts => exact leaves_any parts
  | all parts => exact leaves_all parts

section

variable {holds : Formula → Prop}

mutual

/-- What holds of a formula when it holds of its parts. -/
theorem of_parts (leaf : ∀ id, holds (.leaf id))
    (compound : ∀ formula, formula.IsCompound → (∀ part ∈ formula.parts, holds part) →
      holds formula) : ∀ formula, holds formula
  | .leaf id => leaf id
  | .any parts => compound (.any parts) trivial (each_of_parts leaf compound parts)
  | .all parts => compound (.all parts) trivial (each_of_parts leaf compound parts)
termination_by structural formula => formula

theorem each_of_parts (leaf : ∀ id, holds (.leaf id))
    (compound : ∀ formula, formula.IsCompound → (∀ part ∈ formula.parts, holds part) →
      holds formula) : ∀ parts : List Formula, ∀ part ∈ parts, holds part
  | [], _, listed => nomatch listed
  | part :: rest, other, listed => by
      rcases List.mem_cons.mp listed with same | listed
      · rw [same]
        exact of_parts leaf compound part
      · exact each_of_parts leaf compound rest other listed
termination_by structural parts => parts

end

end

/-- The same leaves, and the same outcome whatever the leaves accept. -/
structure Equivalent (first second : Formula) : Prop where
  leaves : ∀ id, id ∈ first.leaves ↔ id ∈ second.leaves
  eval : ∀ accepts, first.eval accepts = second.eval accepts

namespace Equivalent

variable {first second third : Formula} {parts others inner rest : List Formula}

theorem refl (formula : Formula) : Equivalent formula formula :=
  ⟨fun _ => .rfl, fun _ => rfl⟩

theorem symm (equivalent : Equivalent first second) : Equivalent second first :=
  ⟨fun id => (equivalent.leaves id).symm, fun accepts => (equivalent.eval accepts).symm⟩

theorem trans (equivalent : Equivalent first second) (again : Equivalent second third) :
    Equivalent first third :=
  ⟨fun id => (equivalent.leaves id).trans (again.leaves id),
    fun accepts => (equivalent.eval accepts).trans (again.eval accepts)⟩

/-- A part of a formula can be replaced by an equivalent one. -/
theorem of_part (equivalent : Equivalent first second) :
    Equivalent (any (first :: rest)) (any (second :: rest)) ∧
      Equivalent (all (first :: rest)) (all (second :: rest)) := by
  refine ⟨⟨fun id => ?_, fun accepts => ?_⟩, fun id => ?_, fun accepts => ?_⟩
  · simp [equivalent.leaves id]
  · simp [equivalent.eval accepts]
  · simp [equivalent.leaves id]
  · simp [equivalent.eval accepts]

/-- The order and the number of equal parts do not matter. -/
theorem of_same_parts (into : parts ⊆ others) (back : others ⊆ parts) :
    Equivalent (any parts) (any others) ∧ Equivalent (all parts) (all others) := by
  have same (part : Formula) : part ∈ parts ↔ part ∈ others := ⟨(into ·), (back ·)⟩
  refine ⟨⟨fun id => ?_, fun accepts => ?_⟩, fun id => ?_, fun accepts => ?_⟩
  · simp [same]
  · rw [Bool.eq_iff_iff]
    simp [same]
  · simp [same]
  · rw [Bool.eq_iff_iff]
    simp [same]

/-- A union in a union can be replaced by its parts, and so can an intersection
in an intersection. -/
theorem nested : Equivalent (any (any inner :: rest)) (any (inner ++ rest)) ∧
    Equivalent (all (all inner :: rest)) (all (inner ++ rest)) :=
  ⟨⟨fun _ => by simp, fun _ => by simp⟩, fun _ => by simp, fun _ => by simp⟩

/-- An intersection is distributed over a union of at least one part. -/
theorem distributed : Equivalent (all (any (first :: inner) :: rest))
    (any ((first :: inner).map fun part => all (part :: rest))) := by
  refine ⟨fun id => ?_, fun accepts => ?_⟩
  · simp only [leaves_all, leaves_any, List.mem_flatMap, List.mem_map, List.mem_cons]
    constructor
    · rintro ⟨part, rfl | listed, inside⟩
      · simp only [leaves_any, List.mem_flatMap, List.mem_cons] at inside
        obtain ⟨part, listed, inside⟩ := inside
        exact ⟨_, ⟨part, listed, rfl⟩, by simp [inside]⟩
      · exact ⟨_, ⟨first, .inl rfl, rfl⟩, by simp; exact .inr ⟨part, listed, inside⟩⟩
    · rintro ⟨_, ⟨part, listed, rfl⟩, inside⟩
      simp only [leaves_all, List.flatMap_cons, List.mem_append, List.mem_flatMap] at inside
      rcases inside with inside | ⟨other, listed', inside⟩
      · exact ⟨_, .inl rfl, by simp; grind⟩
      · exact ⟨other, .inr listed', inside⟩
  · rw [Bool.eq_iff_iff]
    simp only [eval_all, eval_any, List.all_cons, List.any_map, Bool.and_eq_true, List.any_eq_true,
      Function.comp_apply]
    exact ⟨fun ⟨⟨part, listed, here⟩, others⟩ => ⟨part, listed, here, others⟩,
      fun ⟨part, listed, here, others⟩ => ⟨⟨part, listed, here⟩, others⟩⟩

end Equivalent

/-- Formulas that differ, at any level, in the order, number and nesting of parts and
in intersections that are distributed over unions. -/
inductive Rearranged : Formula → Formula → Prop
  | refl (formula : Formula) : Rearranged formula formula
  | symm {first second : Formula} (rearranged : Rearranged first second) : Rearranged second first
  | trans {first second third : Formula} (rearranged : Rearranged first second)
      (again : Rearranged second third) : Rearranged first third
  | anyPart {first second : Formula} {rest : List Formula} (rearranged : Rearranged first second) :
      Rearranged (.any (first :: rest)) (.any (second :: rest))
  | allPart {first second : Formula} {rest : List Formula} (rearranged : Rearranged first second) :
      Rearranged (.all (first :: rest)) (.all (second :: rest))
  | anySame {parts others : List Formula} (into : parts ⊆ others) (back : others ⊆ parts) :
      Rearranged (.any parts) (.any others)
  | allSame {parts others : List Formula} (into : parts ⊆ others) (back : others ⊆ parts) :
      Rearranged (.all parts) (.all others)
  | anyNested {inner rest : List Formula} :
      Rearranged (.any (.any inner :: rest)) (.any (inner ++ rest))
  | allNested {inner rest : List Formula} :
      Rearranged (.all (.all inner :: rest)) (.all (inner ++ rest))
  | distributed {first : Formula} {inner rest : List Formula} :
      Rearranged (.all (.any (first :: inner) :: rest))
        (.any ((first :: inner).map fun part => .all (part :: rest)))

theorem Rearranged.equivalent {first second : Formula} (rearranged : Rearranged first second) :
    Equivalent first second := by
  induction rearranged with
  | refl formula => exact .refl formula
  | symm _ ih => exact ih.symm
  | trans _ _ ih again => exact ih.trans again
  | anyPart _ ih => exact ih.of_part.1
  | allPart _ ih => exact ih.of_part.2
  | anySame into back => exact (Equivalent.of_same_parts into back).1
  | allSame into back => exact (Equivalent.of_same_parts into back).2
  | anyNested => exact Equivalent.nested.1
  | allNested => exact Equivalent.nested.2
  | distributed => exact Equivalent.distributed

end Formula

end Conform
