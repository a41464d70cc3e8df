import Conform.Proofs.Resolver.KnownShapes
import Conform.Proofs.Shape.Algebra

/-! Inheritance.  A known shape was merged level by level, from shapes that were merged before
it.  What is left is the shape of all properties in the order in which they are met. -/

namespace Conform

namespace Arena

mutual

/-- The properties of an interface and then those of its parents, one after the other, with all
that these inherit; and the first index signature on the way. -/
inductive Lineage (arena : Arena) (resolves : SchemaId → SchemaId → Prop) :
    SchemaId → List Property → Option IndexSignature → Prop
  | interface {id : SchemaId} {own inherited : List Property} {index further : Option IndexSignature}
      {parents : List SchemaId} (node : arena.get? id = some (.interface own index parents))
      (above : Lineages arena resolves parents inherited further) :
      Lineage arena resolves id (own ++ inherited) (index.or further)

inductive Lineages (arena : Arena) (resolves : SchemaId → SchemaId → Prop) :
    List SchemaId → List Property → Option IndexSignature → Prop
  | nil : Lineages arena resolves [] [] none
  | cons {parent resolved : SchemaId} {parents : List SchemaId} {properties more : List Property}
      {index further : Option IndexSignature} (leads : resolves parent resolved)
      (first : Lineage arena resolves resolved properties index)
      (rest : Lineages arena resolves parents more further) :
      Lineages arena resolves (parent :: parents) (properties ++ more) (index.or further)

end

section

variable {arena : Arena} {resolves : SchemaId → SchemaId → Prop} {id parent : SchemaId}
  {parents : List SchemaId} {properties : List Property} {index : Option IndexSignature}

theorem Lineage.of_interface {own : List Property} {declared : Option IndexSignature}
    (lineage : Lineage arena resolves id properties index)
    (node : arena.get? id = some (.interface own declared parents)) :
    ∃ inherited further, Lineages arena resolves parents inherited further ∧
      properties = own ++ inherited ∧ index = declared.or further := by
  cases lineage with
  | interface node' above =>
      cases node.symm.trans node'
      exact ⟨_, _, above, rfl, rfl⟩

theorem Lineages.of_cons (lineages : Lineages arena resolves (parent :: parents) properties index) :
    ∃ resolved own signature more further, resolves parent resolved ∧
      Lineage arena resolves resolved own signature ∧ Lineages arena resolves parents more further ∧
      properties = own ++ more ∧ index = signature.or further := by
  cases lineages with
  | cons leads first rest => exact ⟨_, _, _, _, _, leads, first, rest, rfl, rfl⟩

/-- There is one lineage at most where parents resolve one way. -/
theorem Lineage.unique (oneWay : Relator.RightUnique resolves)
    (lineage : Lineage arena resolves id properties index) :
    ∀ others other, Lineage arena resolves id others other → properties = others ∧ index = other := by
  -- Both relations are gone through at once, the second one along the list of parents.
  refine @Lineage.rec arena resolves
    (fun id properties index _ => ∀ others other, Lineage arena resolves id others other →
      properties = others ∧ index = other)
    (fun parents properties index _ => ∀ others other, Lineages arena resolves parents others other →
      properties = others ∧ index = other) ?interface ?nil ?cons id properties index lineage
  case interface =>
    intro id own inherited index further parents node above ih others other same
    obtain ⟨inherited', further', above', rfl, rfl⟩ := same.of_interface node
    obtain ⟨rfl, rfl⟩ := ih _ _ above'
    exact ⟨rfl, rfl⟩
  case nil =>
    intro others other same
    cases same
    exact ⟨rfl, rfl⟩
  case cons =>
    intro parent resolved parents properties more index further leads first rest ih ih' others other same
    obtain ⟨resolved', own, signature, _, _, leads', first', rest', rfl, rfl⟩ := same.of_cons
    cases oneWay leads leads'
    obtain ⟨rfl, rfl⟩ := ih _ _ first'
    obtain ⟨rfl, rfl⟩ := ih' _ _ rest'
    exact ⟨rfl, rfl⟩

end

end Arena

namespace Resolver

open Run

variable {core : Nat} {state : ResolverState} {id parent : SchemaId} {shape start : Shape}
  {older : List (SchemaId × Shape)} {parents : List SchemaId} {own : List Property}
  {index : Option IndexSignature} {resolves : SchemaId → SchemaId → Prop}

theorem inheritParents_stable {resolve : SchemaId → Run SchemaId} {flatten : SchemaId → Run Shape}
    (resolves : ∀ id, Stable core (resolve id)) (flattens : ∀ id, Stable core (flatten id))
    (start : Shape) (parents : List SchemaId) :
    Stable core (inheritParents resolve flatten start parents) := by
  induction parents generalizing start with
  | nil => exact .pure start
  | cons parent rest ih =>
      apply Stable.bind (resolves parent)
      intro resolved
      apply Stable.bind (.node resolved)
      intro node
      cases node with
      | interface _ _ _ => exact .bind (flattens resolved) fun inherited => ih _
      | _ => exact .fail _

/-- The first parent is an interface whose shape was known before. -/
theorem inheritParents_yields (sound : state.Sound core)
    (yields : Yields (inheritParents (resolveWithin 0 1) (recallShape older) start (parent :: parents))
      state shape) :
    ∃ resolved properties index above base, Resolves state parent resolved ∧
      state.arena.get? resolved = some (.interface properties index above) ∧
      older.lookup resolved = some base ∧
      Yields (inheritParents (resolveWithin 0 1) (recallShape older) (start.inherit base) parents) state
        shape := by
  have onward (start : Shape) : Stable core
      (inheritParents (resolveWithin 0 1) (recallShape older) start parents) :=
    inheritParents_stable (resolveWithin_stable 0 1) (recallShape_stable older) start parents
  obtain ⟨resolved, resolves, rest⟩ := Yields.split (resolveWithin_stable 0 1 parent) (fun resolved => by
    apply Stable.bind (.node resolved)
    intro node
    cases node with
    | interface _ _ _ => exact .bind (recallShape_stable older resolved) fun inherited => onward _
    | _ => exact .fail _) sound yields
  obtain ⟨node, _, reads, rest⟩ := of_bind_ok rest
  obtain ⟨found, rfl⟩ := of_node_ok reads
  cases node with
  | interface properties index above =>
      obtain ⟨base, recalls, rest⟩ :=
        Yields.split (recallShape_stable older resolved) (fun base => onward _) sound rest
      exact ⟨resolved, properties, index, above, base, Yields.resolves sound resolves, found,
        recallShape_yields recalls, rest⟩
  | _ => cases rest

theorem ShapeSound.inherits (accounted : ShapeSound core state older id shape)
    (found : state.arena.get? id = some (.interface own index parents)) :
    Yields (inheritParents (resolveWithin 0 1) (recallShape older) (Shape.own own index) parents) state
      shape := by
  obtain ⟨_, _, reads, rest⟩ := of_bind_ok accounted.computed.now
  cases (node_apply found).symm.trans reads
  exact rest

/-- Shapes that come from lineages are merged to the shape of these lineages. -/
theorem lineages_of_yields (sound : state.Sound core)
    (leads : ∀ id resolved, Resolves state id resolved → resolves id resolved)
    (known : ∀ id properties index above base,
      state.arena.get? id = some (.interface properties index above) → older.lookup id = some base →
        ∃ all first, state.arena.Lineage resolves id all first ∧ base = Shape.own all first)
    (yields : Yields (inheritParents (resolveWithin 0 1) (recallShape older) (Shape.own own index) parents)
      state shape) :
    ∃ inherited further, state.arena.Lineages resolves parents inherited further ∧
      shape = Shape.own (own ++ inherited) (index.or further) := by
  induction parents generalizing own index with
  | nil =>
      cases yields
      exact ⟨[], none, .nil, by simp⟩
  | cons parent rest ih =>
      obtain ⟨resolved, _, _, _, base, resolving, node, before, onward⟩ :=
        inheritParents_yields sound yields
      obtain ⟨properties, signature, lineage, rfl⟩ := known resolved _ _ _ base node before
      rw [Shape.inherit_own] at onward
      obtain ⟨inherited, further, lineages, rfl⟩ := ih onward
      exact ⟨properties ++ inherited, signature.or further, .cons (leads _ _ resolving) lineage lineages,
        by rw [List.append_assoc, Option.or_assoc]⟩

/-- The known shape of an interface is that of its lineage. -/
theorem lineage_of_known (sound : state.Sound core)
    (leads : ∀ id resolved, Resolves state id resolved → resolves id resolved)
    (known : state.shapes.find? id = some shape) :
    ∀ own index parents, state.arena.get? id = some (.interface own index parents) →
      ∃ properties signature, state.arena.Lineage resolves id properties signature ∧
        shape = Shape.own properties signature := by
  apply Memo.find?_induction (motive := fun id shape => ∀ own index parents,
    state.arena.get? id = some (.interface own index parents) →
      ∃ properties signature, state.arena.Lineage resolves id properties signature ∧
        shape = Shape.own properties signature) _ known
  intro older id shape suffix earlier own index parents found
  have inherits := (sound.shapes older id shape suffix).inherits found
  obtain ⟨inherited, further, lineages, made⟩ := lineages_of_yields sound leads
    (fun other own index parents base node before => earlier other base before own index parents node)
    inherits
  exact ⟨own ++ inherited, index.or further, .interface found lineages, made⟩

end Resolver

end Conform
