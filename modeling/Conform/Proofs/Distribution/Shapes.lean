import Conform.Proofs.Distribution.Apart
import Conform.Proofs.Distribution.Stacked

/-! The shape of combinators on a member.  A shape that is known, and a failure to
compute one, come from the combinators and the member, whatever the nodes are. -/

namespace Conform.Distributed

open Run Resolver Agreement

variable {core limit steps : Nat} {before last : ResolverState} {member inner top resolved : SchemaId}
  {innermost combinator : Combinator} {combinators : List Combinator} {chain : CombinatorChain}
  {node : Node} {base shape : Shape} {error : SchemaError} {pending : List SchemaId}
  {older : List (SchemaId × Shape)}

/-- What a combinator makes of a shape. -/
def combineAt (last : ResolverState) (fuel : Nat) (combinator : Combinator) (base : Shape) :
    Except SchemaError Shape :=
  (combine (flattenWithin 0 fuel []) base combinator last).1

/-- The shape of combinators on a member, the outermost one first. -/
def stackAt (last : ResolverState) (fuel : Nat) (innermost : Combinator) (member : SchemaId) :
    List Combinator → Except SchemaError Shape
  | [] => (flattenTarget (resolveWithin 0 fuel) (flattenWithin 0 fuel []) innermost member last).1
  | combinator :: rest => stackAt last fuel innermost member rest >>= combineAt last fuel combinator

def shapeAt (last : ResolverState) (fuel : Nat) (chain : CombinatorChain) (member : SchemaId) :
    Except SchemaError Shape :=
  stackAt last fuel chain.innermost member chain.toList.reverse

theorem target_known (resolves : Resolves last member resolved)
    (there : last.arena.get? resolved = some node) (like : node.isInterfaceLike = true)
    (known : last.shapes.find? resolved = some base) :
    Converges (stackAt last · innermost member []) (.ok base) := by
  refine ⟨1, fun fuel above => ?_⟩
  obtain ⟨fuel, rfl⟩ : ∃ fewer, fuel = fewer + 1 := ⟨fuel - 1, by omega⟩
  have ran : flattenTarget (resolveWithin 0 (fuel + 1)) (flattenWithin 0 (fuel + 1) []) innermost member
      last = (.ok base, last) := by
    refine (bind_ok (resolves.lasts 0 fuel).now).trans ((bind_ok (node_apply there)).trans ?_)
    simpa only [like, if_true] using (flattenWithin_known known 0 (fuel + 1) []).now
  exact congrArg Prod.fst ran

theorem combine_known (sound : last.Sound core) (suffix : older <:+ last.shapes.entries)
    (combines : Yields (combine (recallShape older) base combinator) last shape) :
    Converges (combineAt last · combinator base) (.ok shape) := by
  refine ⟨0, fun fuel _ => ?_⟩
  cases combinator with
  | overwrite patch =>
      obtain ⟨overlay, recalls, rest⟩ :=
        Yields.split (recallShape_stable older patch) (fun _ => .pure _) sound combines
      have known := shape_of_suffix sound suffix (recallShape_yields recalls)
      cases rest
      exact congrArg Prod.fst (bind_ok (flattenWithin_known known 0 fuel []).now)
  | _ => exact congrArg Prod.fst combines

theorem stack_known (sound : last.Sound core) (stacked : Stacked core last member combinators inner)
    (resolves : Resolves last inner resolved) (there : last.arena.get? resolved = some node)
    (like : node.isInterfaceLike = true) (known : last.shapes.find? resolved = some base) :
    Converges (stackAt last · innermost member combinators) (.ok base) := by
  induction stacked generalizing resolved node base with
  | base => exact target_known resolves there like known
  | apply found _ _ ih =>
      cases resolves.concrete found trivial
      obtain ⟨older, entry, accounted⟩ := shape_sound sound known
      have suffix := (List.suffix_cons _ _).trans entry
      obtain ⟨target, targetNode, shape, resolves', there', like', known', combines⟩ :=
        accounted.mapped sound found
      exact .bind (ih resolves' there' like' (shape_of_suffix sound suffix known'))
        (combine_known sound suffix combines)

theorem shapeAt_known (sound : last.Sound core) (stacked : Stacked core last member combinators top)
    (chained : chain.toList = combinators.reverse) (known : last.shapes.find? top = some shape) :
    Converges (shapeAt last · chain member) (.ok shape) := by
  obtain ⟨_, _, node⟩ := stacked.mapped (CombinatorChain.applied chained)
  simp only [shapeAt, chained, List.reverse_reverse]
  exact stack_known sound stacked (resolves_concrete node trivial) node rfl known

/-- Runs with any steps and with more of them, from a state and from a later one. -/
theorem parts_agree {bound steps' : Nat} (steps_le : steps ≤ steps') :
    Parts core False bound (fun _ => True) (resolveWithin limit steps) (resolveWithin 0 steps')
      (flattenWithin limit steps []) (flattenWithin 0 steps' []) := by
  have enough : ¬ steps' < steps := Nat.not_lt.mpr steps_le
  refine ⟨fun world id other linked related => (resolveWithin_agrees limit steps 0 steps' world id other
    linked related).weaken enough, resolveWithin_meets 0 steps', fun world id other linked _ related
      within => ?_, fun _ _ _ _ _ _ => trivial⟩
  refine (((flattenWithin_agrees limit steps 0 steps' world id other linked related).weaken
    enough).and_right (flattenWithin_meets 0 steps' [] other world.right linked.right)).imp ?_
  rintro shape otherShape next - - ⟨shapes, -, -, bounded⟩
  exact ⟨shapes, bounded.widen (by rcases within with early | early <;> omega)⟩

/-- The target of a shape that has been computed. -/
theorem flattenTarget_known {after : ResolverState} (sound : before.Sound core)
    (ran : flattenTarget (resolveWithin limit steps) (flattenWithin limit steps pending) combinator inner
      before = (.ok base, after)) : ∃ resolved node, Resolves after inner resolved ∧
      after.arena.get? resolved = some node ∧ node.isInterfaceLike = true ∧
        after.shapes.find? resolved = some base := by
  obtain ⟨resolved, middle, resolves, rest⟩ := of_bind_ok ran
  have meets := resolveWithin_meets limit steps inner before sound
  have resolved_now := (meets.answers _ _ resolves).1
  have middle_sound := (meets.always_ok resolves).sound
  obtain ⟨node, _, reads, rest⟩ := of_bind_ok rest
  obtain ⟨there, rfl⟩ := of_node_ok reads
  cases like : node.isInterfaceLike with
  | false =>
      simp only [like] at rest
      cases rest
  | true =>
      simp only [like, if_true] at rest
      have flattens := flattenWithin_meets limit steps pending resolved middle middle_sound
      have grown := (flattens.always_ok rest).grown
      exact ⟨resolved, node, resolved_now.later grown, ResolverState.get?_later there grown, like,
        (flattens.answers _ _ rest).1⟩

/-- The nodes whose shapes are being computed come behind the given one. -/
def Behind (core : Nat) (id : SchemaId) (pending : List SchemaId) : Prop :=
  ∀ other ∈ pending, core ≤ other.index ∧ id.index < other.index

theorem Behind.same (behind : Behind core inner pending) (limit steps : Nat) :
    SameBelow core (inner.index + 1) (flattenWithin limit steps pending) (flattenWithin limit steps []) := by
  refine fun id state sound within => flattenWithin_apart limit steps (.nil fun other listed => ?_) sound
  obtain ⟨late, above⟩ := behind other listed
  rcases within with early | early <;> omega

theorem Behind.cons (behind : Behind core top pending) (late : core ≤ top.index)
    (below : inner.index < top.index) : Behind core inner (top :: pending) := by
  intro other listed
  rcases List.mem_cons.mp listed with rfl | listed
  · exact ⟨late, below⟩
  · obtain ⟨late', above⟩ := behind other listed
    exact ⟨late', by omega⟩

theorem target_fails (present : member.index < before.arena.size)
    (related : Combinator.Related (World.same before last).ids combinator combinator)
    (behind : Behind core member pending)
    (answers : Answers core last (flattenTarget (resolveWithin limit steps)
      (flattenWithin limit steps pending) combinator member) before (.error error)) :
    Converges (stackAt last · combinator member []) (.error error) := by
  have apart := answers.congr (flattenTarget_congr (resolveWithin_meets limit steps)
    (behind.same limit steps) answers.sound combinator (Nat.lt_succ_self _))
  have grows := answers.grows (flattenTarget_stable (resolveWithin_stable limit steps)
    (flattenWithin_stable limit steps pending) combinator member)
  have linked : (World.same before last).Linked core := .same answers.sound grows.sound grows.grown
  exact ⟨steps, fun fuel above => apart.fails (flattenTarget_agrees (parts_agree above) linked trivial
    related ⟨rfl, present⟩ (Nat.lt_succ_self _))⟩

theorem combine_fails (early : ∀ patch ∈ combinator.children,
      patch.index < before.arena.size ∧ Behind core patch pending)
    (answers : Answers core last (combine (flattenWithin limit steps pending) base combinator) before
      (.error error)) : Converges (combineAt last · combinator base) (.error error) := by
  have grows := answers.grows (combine_stable (flattenWithin_stable limit steps pending) base combinator)
  cases combinator with
  | pick keys =>
      have picked : base.pick keys = .error error := by
        rw [← answers.ran]
        simp only [combine, ofExcept_apply]
      exact ⟨0, fun fuel _ => by simp only [combineAt, combine, ofExcept_apply, picked]⟩
  | optional => cases answers.ok_eq rfl
  | without keys => cases answers.ok_eq rfl
  | overwrite patch =>
      obtain ⟨present, behind⟩ := early patch (List.mem_singleton_self _)
      rcases answers.split (flattenWithin_stable limit steps pending patch) with
        ⟨_, same, fails⟩ | ⟨_, _, -, -, rest⟩
      · cases same
        have apart := fails.congr (behind.same limit steps patch before answers.sound
          (.inr (Nat.lt_succ_self _)))
        have linked : (World.same before last).Linked core := .same answers.sound grows.sound grows.grown
        refine ⟨steps, fun fuel above => ?_⟩
        have failed := apart.fails ((flattenWithin_agrees limit steps 0 fuel _ patch patch linked
          ⟨rfl, present⟩).weaken (Nat.not_lt.mpr above))
        exact congrArg Prod.fst (bind_error (Prod.ext failed rfl))
      · cases rest.ok_eq rfl

/-- A combinator fails where its target fails, or on the shape of the target. -/
theorem flatten_fails
    (found : before.arena.get? top = some (.mapped combinator inner)) (late : core ≤ top.index)
    (rest : Stacked core before member combinators inner) (behind : Behind core top pending)
    (targets : ∀ limit steps pending error, Behind core inner pending →
      Answers core last (flattenTarget (resolveWithin limit steps) (flattenWithin limit steps pending)
        combinator inner) before (.error error) →
      Converges (stackAt last · innermost member combinators) (.error error))
    (answers : Answers core last (flattenWithin limit steps pending top) before (.error error)) :
    Converges (stackAt last · innermost member (combinator :: combinators)) (.error error) := by
  have unknown : before.shapes.find? top = none := by
    cases known : before.shapes.find? top with
    | none => rfl
    | some shape => cases answers.ok_eq (flattenWithin_known known limit steps pending).now
  have free : ¬ pending.contains top = true := by
    intro listed
    have above := (behind top (List.elem_iff.mp listed)).2
    omega
  cases steps with
  | zero => exact (answers.unlimited (flattenWithin_none unknown free)).elim
  | succ steps =>
      have children := answers.sound.ordered top _ found
      have below : inner.index < top.index := children inner (List.mem_cons_self ..)
      have flattens (id : SchemaId) : Stable core (flattenWithin limit steps (top :: pending) id) :=
        flattenWithin_stable limit steps _ id
      have base_stable := flattenTarget_stable (resolveWithin_stable limit steps) flattens combinator inner
      have combines (base : Shape) := combine_stable flattens base combinator
      have shape_answers : Answers core last (flattenTarget (resolveWithin limit steps)
          (flattenWithin limit steps (top :: pending)) combinator inner >>= fun base =>
            combine (flattenWithin limit steps (top :: pending)) base combinator) before (.error error) := by
        have computes := answers.congr ((flattenWithin_unknown unknown free).trans
          (bind_congr (bind_ok (node_apply found)) fun _ _ _ => rfl))
        rcases computes.split (.bind base_stable combines) with ⟨_, same, fails⟩ | ⟨_, _, -, -, kept⟩
        · cases same
          exact fails
        · cases kept.ok_eq keepShape_apply
      rcases shape_answers.split base_stable with ⟨_, same, fails⟩ | ⟨base, middle, ran, grows, onward⟩
      · cases same
        exact .bind_error (targets _ _ _ _ (behind.cons late below) fails)
      · obtain ⟨resolved, node, resolves, there, like, known⟩ := flattenTarget_known answers.sound ran
        have ends := onward.grows (combines base)
        refine .bind (stack_known ends.sound (rest.later (le_trans grows.grown ends.grown))
          (resolves.later ends.grown) (ResolverState.get?_later there ends.grown) like
          (ResolverState.shape_later known ends.grown)) ?_
        refine combine_fails (fun patch listed => ?_) onward
        have earlier := children patch (List.mem_cons_of_mem _ listed)
        exact ⟨Nat.lt_of_lt_of_le (Nat.lt_trans earlier (Arena.index_lt_size found))
          (ResolverState.size_mono grows.grown), behind.cons late earlier⟩

theorem stack_fails (stacked : Stacked core before member combinators inner)
    (present : inner.index < before.arena.size)
    (related : Combinator.Related (World.same before last).ids combinator combinator)
    (last_is : (combinator :: combinators).getLast? = some innermost) (behind : Behind core inner pending)
    (answers : Answers core last (flattenTarget (resolveWithin limit steps)
      (flattenWithin limit steps pending) combinator inner) before (.error error)) :
    Converges (stackAt last · innermost member combinators) (.error error) := by
  induction stacked generalizing combinator limit steps pending error with
  | base =>
      cases last_is
      exact target_fails present related behind answers
  | @apply outer rest bottom top found late stacked ih =>
      -- The target is a combinator itself, so its shape is asked for in its turn.
      cases steps with
      | zero => exact (answers.unlimited (bind_error rfl)).elim
      | succ steps =>
          have fails : Answers core last (flattenWithin limit (steps + 1) pending top) before
              (.error error) := (answers.onward (resolve_mapped found limit steps) answers.sound).node found
          obtain ⟨related', present'⟩ := mapped_related last answers.sound found
          exact flatten_fails found late stacked behind (fun _ _ _ _ behind' answers' =>
            ih present' related' (by simpa using last_is) behind' answers') fails

theorem shapeAt_fails (stacked : Stacked core before member combinators top)
    (chained : chain.toList = combinators.reverse)
    (answers : Answers core last (flattenWithin limit steps [] top) before (.error error)) :
    Converges (shapeAt last · chain member) (.error error) := by
  simp only [shapeAt, chained, List.reverse_reverse]
  cases stacked with
  | base => cases chained
  | @apply combinator combinators inner _ found late rest =>
      obtain ⟨related, present⟩ := mapped_related last answers.sound found
      have innermost : (combinator :: combinators).getLast? = some chain.innermost := by
        rw [← List.head?_reverse, ← chained]
        rfl
      have nothing : Behind core top [] := fun _ listed => (List.not_mem_nil listed).elim
      exact flatten_fails found late rest nothing (fun _ _ _ _ behind answers' =>
        stack_fails rest present related innermost behind answers') answers

/-- The shape depends on the combinators and the member alone. -/
theorem Answers.flattens {answer : Except SchemaError Shape}
    (stacked : Stacked core before member combinators top) (chained : chain.toList = combinators.reverse)
    (answers : Answers core last (flattenWithin limit steps [] top) before answer) :
    Converges (shapeAt last · chain member) answer := by
  have stable : Stable core (flattenWithin limit steps [] top) := flattenWithin_stable limit steps [] top
  rcases answers.outcome stable with ⟨error, rfl⟩ | ⟨shape, after, ran, grows, ends, rfl⟩
  · exact shapeAt_fails stacked chained answers
  · have known := ((flattenWithin_meets limit steps [] top before answers.sound).answers _ _ ran).1
    exact shapeAt_known ends.sound (stacked.later (le_trans grows.grown ends.grown)) chained
      (ResolverState.shape_later known ends.grown)

end Conform.Distributed
