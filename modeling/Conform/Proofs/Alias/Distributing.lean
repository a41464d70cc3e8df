import Conform.Proofs.Alias.Shapes
import Conform.Proofs.Distribution.Checking

/-! Chains of combinators whose patches resolve alike, on one member.  Each part of what a union of such
combinators comes to has the same fate for both chains. -/

namespace Conform.Alias

open Run Resolver Agreement Distributed Validator

variable {core limit budget fuel levels : Nat} {state last : ResolverState}
  {id other member target otherTarget : SchemaId} {combinator otherCombinator : Combinator}
  {combinators others : List Combinator} {chain otherChain : CombinatorChain} {members : List SchemaId}
  {resolve : SchemaId → Run SchemaId} {base : Shape} {options : Options} {value : Value} {fields : ForeignFields}

/-- The same combinators, with patches that resolve to one. -/
abbrev CombinatorsAlike (last : ResolverState) : List Combinator → List Combinator → Prop :=
  List.Forall₂ (Combinator.Related (Alike last))

theorem combinator_alike (last : ResolverState) (combinator : Combinator) :
    Combinator.Related (Alike last) combinator combinator := by
  cases combinator with
  | pick keys => exact .pick keys
  | optional => exact .optional
  | without keys => exact .without keys
  | overwrite patch => exact .overwrite (.inl rfl)

theorem CombinatorsAlike.innermost (alike : CombinatorsAlike last chain.toList otherChain.toList) :
    chain.innermost.kind = otherChain.innermost.kind :=
  (List.forall₂_cons.mp alike).1.kind

/-- What is found on the way down, up to the patches of the chain. -/
def FoundAlike (last : ResolverState) :
    Option (CombinatorChain × List SchemaId) → Option (CombinatorChain × List SchemaId) → Prop :=
  Option.Rel fun found other => CombinatorsAlike last found.1.toList other.1.toList ∧ found.2 = other.2

theorem walkChain_sameFate (alike : CombinatorsAlike last chain.toList otherChain.toList)
    (limit budget : Nat) (target : SchemaId) (state : ResolverState) :
    SameFate (FoundAlike last) (walkChain limit resolve budget chain target state).1
      (walkChain limit resolve budget otherChain target state).1 := by
  induction budget generalizing chain otherChain target state with
  | zero => exact .failed rfl
  | succ budget ih =>
      rw [walkChain, walkChain]
      cases ran : resolve target state with
      | mk outcome middle =>
          cases outcome with
          | error error =>
              rw [bind_error ran, bind_error ran]
              exact .failed rfl
          | ok resolved =>
              rw [bind_ok ran, bind_ok ran]
              cases found : middle.arena.get? resolved with
              | none =>
                  rw [bind_error (node_missing found), bind_error (node_missing found)]
                  exact .failed rfl
              | some node =>
                  rw [bind_ok (node_apply found), bind_ok (node_apply found), alike.innermost]
                  cases node with
                  | union members => exact .found (.some ⟨alike, rfl⟩)
                  | interface _ _ _ => exact .found .none
                  | mapped combinator inner =>
                      have pushed : CombinatorsAlike last (chain.push combinator).toList
                          (otherChain.push combinator).toList := .cons (combinator_alike last combinator) alike
                      exact ih pushed inner middle
                  | _ => exact .failed rfl

theorem walkAt_sameFate (alike : CombinatorsAlike last chain.toList otherChain.toList) (fuel : Nat)
    (member : SchemaId) :
    SameFate (FoundAlike last) (walkAt last fuel chain member) (walkAt last fuel otherChain member) :=
  walkChain_sameFate alike 0 fuel member last

/-- Targets that resolve to one lead down to the same. -/
theorem walkAt_joined (joins : Joins last target otherTarget)
    (alike : CombinatorsAlike last chain.toList otherChain.toList) (fuel : Nat) :
    SameFate (FoundAlike last) (walkAt last (fuel + 1) chain target)
      (walkAt last (fuel + 1) otherChain otherTarget) := by
  obtain ⟨resolved, resolves, resolves'⟩ := joins
  have same : walkAt last (fuel + 1) chain otherTarget = walkAt last (fuel + 1) chain target := by
    rw [walkAt, walkAt, walkChain, walkChain, bind_ok (resolves.lasts 0 fuel).now,
      bind_ok (resolves'.lasts 0 fuel).now]
  exact same ▸ walkAt_sameFate alike (fuel + 1) otherTarget

/-- Where a computation of a shape ends is repeated in a state that has grown. -/
theorem flatten_again {left right : ResolverState} {limit steps : Nat} (sound : left.Sound core)
    (sound' : right.Sound core) (grown : left ≤ right) (present : id.index < left.arena.size)
    (decided : ¬ IsLimited (flattenWithin limit steps [] id left).1) :
    (flattenWithin limit steps [] id right).1 = (flattenWithin limit steps [] id left).1 := by
  cases ran : flattenWithin limit steps [] id left with
  | mk outcome after =>
      cases outcome with
      | ok shape => exact flatten_later sound sound' grown present ran
      | error error =>
          have agrees : Agrees core (steps < steps) (.same left right) _ _ _ :=
            flattenWithin_agrees limit steps limit steps _ id id (.same sound sound' grown) ⟨rfl, present⟩
          exact agrees.of_left_error (by omega) ran fun limit same => decided ⟨limit, by rw [ran, same]⟩

/-- The shapes of patches that resolve to one. -/
theorem patches_sameFate (sound : last.Sound core) (alike : Alike last id other) (fuel : Nat) :
    SameFate Eq (flattenWithin 0 fuel [] id last).1 (flattenWithin 0 fuel [] other last).1 := by
  rcases alike with rfl | joins
  · exact .of_eq rfl
  by_cases limited : IsLimited (flattenWithin 0 fuel [] id last).1
  · exact .limited limited
  by_cases limited' : IsLimited (flattenWithin 0 fuel [] other last).1
  · exact .otherLimited limited'
  obtain ⟨target, resolves, resolves'⟩ := joins
  have present := resolve_present resolves.now
  have present' := resolve_present resolves'.now
  -- The second computation is repeated where the first one ends, so that both end before one state.
  have grows := (flattenWithin_stable 0 fuel [] id last sound).leaves
  have again := flatten_again sound grows.sound grows.grown present' limited'
  have grows' := (flattenWithin_stable 0 fuel [] other _ grows.sound).leaves
  have answers : Answers core _ (flattenWithin 0 fuel [] id) last _ := ⟨sound, rfl, grows', limited⟩
  have answers' : Answers core _ (flattenWithin 0 fuel [] other) _ _ :=
    ⟨grows.sound, again, .refl grows'.sound, limited'⟩
  have grown := le_trans grows.grown grows'.grown
  have joins : Joins _ id other := ⟨target, resolves.later grown, resolves'.later grown⟩
  exact joins.sameFate grows'.sound (flattensTo_of_answers present answers)
    (flattensTo_of_answers (Nat.lt_of_lt_of_le present' (ResolverState.size_mono grows.grown)) answers')

theorem combineAt_sameFate (sound : last.Sound core)
    (related : Combinator.Related (Alike last) combinator otherCombinator) (fuel : Nat) (base : Shape) :
    SameFate Eq (combineAt last fuel combinator base) (combineAt last fuel otherCombinator base) := by
  cases related with
  | pick keys | optional | without keys => exact .of_eq rfl
  | @overwrite patch other patches =>
      have split (patch : SchemaId) : combineAt last fuel (.overwrite patch) base =
          (flattenWithin 0 fuel [] patch last).1.map base.overwrite := by
        rw [combineAt, combine]
        cases ran : flattenWithin 0 fuel [] patch last with
        | mk outcome after =>
            cases outcome with
            | ok top => rw [bind_ok ran]; rfl
            | error error => rw [bind_error ran]; rfl
      rw [split, split]
      exact (patches_sameFate sound patches fuel).map_eq base.overwrite

theorem stackAt_sameFate (sound : last.Sound core) (innermost : combinator.kind = otherCombinator.kind)
    (alike : CombinatorsAlike last combinators others) (fuel : Nat) (member : SchemaId) :
    SameFate Eq (stackAt last fuel combinator member combinators)
      (stackAt last fuel otherCombinator member others) := by
  induction alike with
  | nil =>
      rw [stackAt, stackAt, flattenTarget, flattenTarget, innermost]
      exact .of_eq rfl
  | cons here _ ih =>
      refine ih.bind fun base _ same => ?_
      cases same
      exact combineAt_sameFate sound here fuel base

theorem shapeAt_sameFate (sound : last.Sound core) (alike : CombinatorsAlike last chain.toList otherChain.toList)
    (fuel : Nat) (member : SchemaId) :
    SameFate Eq (shapeAt last fuel chain member) (shapeAt last fuel otherChain member) :=
  stackAt_sameFate sound alike.innermost (List.rel_reverse alike) fuel member

theorem sweepAll_sameFate {sweep sweep' : SchemaId → Except SchemaError (List Shape)}
    (each : ∀ member ∈ members, SameFate Eq (sweep member) (sweep' member)) :
    SameFate Eq (sweepAll sweep members) (sweepAll sweep' members) := by
  induction members with
  | nil => exact .found rfl
  | cons member rest ih =>
      refine (each member (List.mem_cons_self ..)).bind fun shapes _ same => ?_
      cases same
      refine (ih fun other listed => each other (List.mem_cons_of_mem _ listed)).bind fun more _ same => ?_
      cases same
      exact .found rfl

theorem sweepAt_sameFate (sound : last.Sound core) (alike : CombinatorsAlike last chain.toList otherChain.toList)
    (fuel : Nat) (member : SchemaId) :
    SameFate Eq (sweepAt last fuel chain member) (sweepAt last fuel otherChain member) := by
  induction fuel generalizing chain otherChain member with
  | zero => exact .failed rfl
  | succ fuel ih =>
      refine (walkAt_sameFate alike fuel member).bind fun found otherFound same => ?_
      cases same with
      | none =>
          refine (shapeAt_sameFate sound alike fuel member).bind fun shape _ same => ?_
          cases same
          exact .found rfl
      | @some found otherFound pair =>
          obtain ⟨inner, members⟩ := found
          obtain ⟨otherInner, others⟩ := otherFound
          obtain ⟨alike, same⟩ := pair
          cases same
          exact sweepAll_sameFate fun member _ => ih alike member

theorem fieldsAt_sameFate (sound : last.Sound core) (alike : CombinatorsAlike last chain.toList otherChain.toList)
    (fuel : Nat) (members : List SchemaId) :
    SameFate Eq (fieldsAt last fuel chain members) (fieldsAt last fuel otherChain members) := by
  refine (sweepAll_sameFate fun member _ => sweepAt_sameFate sound alike fuel member).bind fun shapes _ same => ?_
  cases same
  exact .found rfl

theorem anyAt_sameFate {check check' : SchemaId → Except SchemaError Outcome}
    (each : ∀ member ∈ members, SameFate Eq (check member) (check' member)) (failures : List Failure) :
    SameFate Eq (anyAt last check failures members) (anyAt last check' failures members) := by
  induction members generalizing failures with
  | nil => exact .of_eq rfl
  | cons member rest ih =>
      rw [anyAt_cons, anyAt_cons]
      refine (each member (List.mem_cons_self ..)).bind fun outcome _ same => ?_
      cases same
      cases outcome with
      | success => exact .found rfl
      | failure failure => exact ih (fun other listed => each other (List.mem_cons_of_mem _ listed)) _

theorem checkAt_sameFate (sound : last.Sound core) (alike : CombinatorsAlike last chain.toList otherChain.toList)
    (fuel : Nat) (member : SchemaId) :
    SameFate Eq (checkAt last options levels value fields fuel chain member)
      (checkAt last options levels value fields fuel otherChain member) := by
  induction fuel generalizing chain otherChain member with
  | zero => exact .failed rfl
  | succ fuel ih =>
      refine (walkAt_sameFate alike fuel member).bind fun found otherFound same => ?_
      cases same with
      | none =>
          refine (shapeAt_sameFate sound alike fuel member).bind fun shape _ same => ?_
          cases same
          exact .of_eq rfl
      | @some found otherFound pair =>
          obtain ⟨inner, members⟩ := found
          obtain ⟨otherInner, others⟩ := otherFound
          obtain ⟨alike, same⟩ := pair
          cases same
          exact anyAt_sameFate (fun member _ => ih alike member) []

/-- The check of a union of combinators on members, for both chains. -/
theorem unionAt_sameFate (sound : last.Sound core) (alike : CombinatorsAlike last chain.toList otherChain.toList)
    (fuel : Nat) (members : List SchemaId) :
    SameFate Eq (unionAt last options levels value fuel chain members)
      (unionAt last options levels value fuel otherChain members) := by
  refine (fieldsAt_sameFate sound alike fuel members).bind fun fields _ same => ?_
  cases same
  exact anyAt_sameFate (fun member _ => checkAt_sameFate sound alike fuel member) []

end Conform.Alias
