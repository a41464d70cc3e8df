import Conform.Proofs.Twins.Resolving
import Conform.Proofs.Validator.Paired

/-! Unions of twins: distributed combinators and foreign fields.  With them every operation of resolution
does the same on both sides. -/

namespace Conform

theorem ForeignFields.absorb_eq {ids : SchemaId → SchemaId → Prop} {shape otherShape : Shape}
    (related : Shape.Related ids shape otherShape) (fields : ForeignFields) :
    fields.absorb shape = fields.absorb otherShape := by
  have names : shape.properties.map (·.name) = otherShape.properties.map (·.name) := related.names_eq
  have listed (properties : List Property) :
      properties.foldl (fun names property => insertName property.name names) fields.names =
        (properties.map (·.name)).foldl (fun names name => insertName name names) fields.names :=
    by rw [List.foldl_map]
  simp only [absorb, listed, names, related.keyType_eq]

namespace Resolver

open Run

variable {twins : Twins} {id other : SchemaId} {ids others : List SchemaId} {limit : Nat}
  {combinators otherCombinators : List Combinator}

theorem applyCombinators_twins
    (combined : List.Forall₂ (Combinator.Related twins.ids) combinators otherCombinators)
    (pair : twins.ids id other) :
    twinning.SameId twins (applyCombinators combinators id) (applyCombinators otherCombinators other) := by
  induction combinators generalizing twins otherCombinators id other with
  | nil =>
      cases combined
      exact .pure pair
  | cons combinator outer ih =>
      obtain ⟨otherCombinator, otherOuter, here, outer_related, rfl⟩ := List.forall₂_cons_left_iff.mp combined
      refine InStep.bind (.alloc (.mapped here pair) trivial) fun top otherTop middle grown pair => ?_
      exact ih (outer_related.imp fun _ _ => Combinator.Related.imp grown.ids) pair

theorem applyToEach_twins
    (combined : List.Forall₂ (Combinator.Related twins.ids) combinators otherCombinators)
    (listed : List.Forall₂ twins.ids ids others) :
    InStep twins (applyToEach combinators ids) (applyToEach otherCombinators others)
      fun tops otherTops later => List.Forall₂ later.ids tops otherTops := by
  induction ids generalizing twins others with
  | nil =>
      cases listed
      exact .pure .nil
  | cons id rest ih =>
      obtain ⟨other, otherRest, here, rest_related, rfl⟩ := List.forall₂_cons_left_iff.mp listed
      refine InStep.bind (applyCombinators_twins combined here) fun top otherTop middle grown pair => ?_
      refine InStep.bind (ih (combined.imp fun _ _ => Combinator.Related.imp grown.ids)
        (rest_related.imp grown.ids)) fun tops otherTops later grown' pairs => ?_
      exact .pure (.cons (grown'.ids _ _ pair) pairs)

theorem distributeWithin_twins (limit steps : Nat) (pair : twins.ids id other) :
    InStep twins (distributeWithin limit steps id) (distributeWithin limit steps other)
      fun union otherUnion later => Option.Rel later.ids union otherUnion := by
  refine InStep.bind (.read _ _) ?_
  rintro _ _ _ - ⟨rfl, rfl, rfl⟩
  rcases Shape.rel_cases (twins.distributions.find pair) with ⟨unknown, unknown'⟩ | ⟨_, _, known, known', unions⟩
  · rw [unknown, unknown']
    cases steps with
    | zero => exact .fail rfl
    | succ steps =>
        refine InStep.bind (.node pair) ?_
        rintro node otherNode _ - ⟨-, rfl, same⟩
        cases same with
        | mapped here targets =>
            refine InStep.bind (walkChain_paired twinning (within_twins limit steps).1 limit limit
              (.cons here .nil) targets) fun walked otherWalked middle grown walks => ?_
            cases walks with
            | none => exact .pure .none
            | some walk =>
                refine InStep.bind (applyToEach_twins walk.combinators walk.members)
                  fun tops otherTops later grown' tops_related => ?_
                refine InStep.bind (.alloc (.union tops_related) trivial)
                  fun union otherUnion last grown'' unions => ?_
                refine InStep.bind (.keepDistribution (grown''.ids _ _ (grown'.ids _ _ (grown.ids _ _ pair))) unions)
                  fun _ _ _ _ kept => .pure (.some kept)
        | @plain node plain => cases node <;> first | exact plain.elim | exact .pure .none
        | _ => exact .pure .none
  · rw [known, known']
    exact .pure (.some unions)

/-- Corresponding nodes have been visited, and they declare the same. -/
structure Collected.Related (ids : SchemaId → SchemaId → Prop) (collected otherCollected : Collected) : Prop where
  visited : List.Forall₂ ids collected.visited otherCollected.visited
  fields : collected.fields = otherCollected.fields

variable {collected otherCollected : Collected}

/-- The branches inside are visited alike. -/
def CollectTwins (collect : Collected → List SchemaId → Run Collected) : Prop :=
  ∀ {twins : Twins} {collected otherCollected ids others}, Collected.Related twins.ids collected otherCollected →
    List.Forall₂ twins.ids ids others →
    InStep twins (collect collected ids) (collect otherCollected others)
      fun result otherResult later => Collected.Related later.ids result otherResult

theorem visit_twins {steps : Nat} {collect : Collected → List SchemaId → Run Collected}
    (collects : CollectTwins collect) (sofar : Collected.Related twins.ids collected otherCollected)
    (pair : twins.ids id other) :
    InStep twins (visit limit steps collect collected id) (visit limit steps collect otherCollected other)
      fun result otherResult later => Collected.Related later.ids result otherResult := by
  obtain ⟨resolves, flattens⟩ := within_twins limit steps
  refine InStep.bind (resolves pair) fun resolved otherResolved middle grown pair => ?_
  have sofar : Collected.Related middle.ids collected otherCollected := ⟨sofar.visited.imp grown.ids, sofar.fields⟩
  rw [middle.contains_eq sofar.visited pair]
  split
  · exact .pure sofar
  · have marked : Collected.Related middle.ids (collected.mark resolved) (otherCollected.mark otherResolved) :=
      ⟨.cons pair sofar.visited, sofar.fields⟩
    refine InStep.bind (.node pair) ?_
    rintro node otherNode _ - ⟨-, rfl, same⟩
    cases same with
    | union members => exact collects marked members
    | intersection members => exact collects marked members
    | interface _ _ _ | mapped _ _ =>
        refine InStep.bind (distributeWithin_twins limit steps pair) fun union otherUnion later grown' unions => ?_
        have marked : Collected.Related later.ids (collected.mark resolved) (otherCollected.mark otherResolved) :=
          ⟨marked.visited.imp grown'.ids, marked.fields⟩
        cases unions with
        | some union => exact collects marked (.cons union .nil)
        | none =>
            refine InStep.bind (flattens .nil (grown'.ids _ _ pair)) fun shape otherShape last grown'' shapes => ?_
            refine .pure ⟨marked.visited.imp grown''.ids, ?_⟩
            simp only [Collected.absorb, marked.fields, ForeignFields.absorb_eq shapes]
    | @plain node plain => cases node <;> first | exact plain.elim | exact .pure marked
    | _ => exact .pure marked

theorem collectWithin_twins (limit steps : Nat) : CollectTwins (collectWithin limit steps) := by
  induction steps with
  | zero => exact fun _ _ => .fail rfl
  | succ steps ih =>
      intro twins collected otherCollected ids others sofar listed
      change InStep twins (ids.foldlM _ collected) (others.foldlM _ otherCollected) _
      induction ids generalizing twins others collected otherCollected with
      | nil =>
          cases listed
          exact .pure sofar
      | cons id rest onward =>
          obtain ⟨other, otherRest, here, rest_related, rfl⟩ := List.forall₂_cons_left_iff.mp listed
          rw [List.foldlM_cons, List.foldlM_cons]
          exact InStep.bind (visit_twins ih sofar here) fun _ _ later grown sofar =>
            onward sofar (rest_related.imp grown.ids)

theorem foreignFields_twins (limit : Nat) (pair : twins.ids id other) :
    twinning.Same twins (foreignFields limit id) (foreignFields limit other) := by
  refine InStep.bind (.read _ _) ?_
  rintro _ _ _ - ⟨rfl, rfl, rfl⟩
  rcases Shape.rel_cases (twins.foreign.find pair) with ⟨unknown, unknown'⟩ | ⟨_, _, known, known', rfl⟩
  · rw [unknown, unknown']
    refine InStep.bind (collectWithin_twins limit limit ⟨.nil, rfl⟩ (.cons pair .nil))
      fun collected otherCollected later grown result => ?_
    rw [result.fields]
    exact .keepForeign (grown.ids _ _ pair) _
  · rw [known, known']
    exact .pure rfl

theorem twinning_resolves (limit : Nat) : twinning.Resolves limit where
  resolve pair := (within_twins limit limit).1 pair
  distribute pair := distributeWithin_twins limit limit pair
  flatten pair := (within_twins limit limit).2 .nil pair
  foreignFields pair := foreignFields_twins limit pair

end Resolver

end Conform
