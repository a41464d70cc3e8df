import Conform.Proofs.Distribution.Descending
import Conform.Proofs.Resolver.Inheriting

/-! One step of a computation of shapes, in the last state.  What it takes from other nodes is known there,
or it is the first shape that is missing. -/

namespace Conform.Alias

open Run Resolver Agreement Distributed

variable {core limit steps : Nat} {before middle last : ResolverState} {id other target : SchemaId}
  {chain : List SchemaId} {error : SchemaError} {shape base : Shape} {α β : Type}
  {waiting : SchemaId → SchemaError → Prop}

/-- What becomes of a run before the last state in that state, where shapes are not computed: it gives
the same, or asks for a shape that is missing. -/
inductive Recalls (last : ResolverState) (waiting : SchemaId → SchemaError → Prop)
    (again : Nat → (SchemaId → SchemaError) → Run α) : Except SchemaError α → Prop
  | done {found : α} (gives : Converges (fun fuel missing => again fuel missing last)
      fun _ => (.ok found, last)) : Recalls last waiting again (.ok found)
  | fails {error : SchemaError} (stops : Converges (fun fuel missing => (again fuel missing last).1)
      fun _ => .error error) : Recalls last waiting again (.error error)
  | waits {other : SchemaId} {error : SchemaError}
      (stops : Converges (fun fuel missing => (again fuel missing last).1)
        fun missing => .error (missing other)) (waits : waiting other error) :
      Recalls last waiting again (.error error)

theorem bind_stops {first : Run α} {next : α → Run β} (stops : (first before).1 = .error error) :
    ((first >>= next) before).1 = .error error := by
  have ran : first before = (.error error, (first before).2) := Prod.ext stops rfl
  rw [bind_error ran]

theorem Converges.stops {again : Nat → (SchemaId → SchemaError) → Run α}
    {onward : α → Nat → (SchemaId → SchemaError) → Run β} {error : (SchemaId → SchemaError) → SchemaError}
    (stops : Converges (fun fuel missing => (again fuel missing last).1) fun missing => .error (error missing)) :
    Converges (fun fuel missing => ((again fuel missing >>= (onward · fuel missing)) last).1)
      fun missing => .error (error missing) := by
  obtain ⟨enough, ends⟩ := stops
  exact ⟨enough, fun fuel above => funext fun missing => bind_stops (congrFun (ends fuel above) missing)⟩

namespace Recalls

variable {again : Nat → (SchemaId → SchemaError) → Run α} {onward : α → Nat → (SchemaId → SchemaError) → Run β}
  {first : Run α} {next : α → Run β} {result : Except SchemaError β}

theorem bind (answers : Answers core last (first >>= next) before result) (stable : Stable core first)
    (rest_stable : ∀ found, Stable core (next found))
    (part : ∀ answer, Answers core last first before answer → Recalls last waiting again answer)
    (rest : ∀ found middle, first before = (.ok found, middle) → Grows core before middle →
      Answers core last (next found) middle result → Recalls last waiting (onward found) result) :
    Recalls last waiting (fun fuel missing => again fuel missing >>= (onward · fuel missing)) result := by
  rcases answers.split stable with ⟨error, rfl, failed⟩ | ⟨found, middle, ran, grows, goesOn⟩
  · cases part _ failed with
    | fails stops => exact .fails (Converges.stops stops)
    | waits stops waits => exact .waits (Converges.stops stops) waits
  · cases part _ (.of_ok answers.sound ran (goesOn.grows (rest_stable found))) with
    | done gives =>
        obtain ⟨enough, ends⟩ := gives
        have skips (fuel : Nat) (above : enough ≤ fuel) (missing : SchemaId → SchemaError) :
            (again fuel missing >>= (onward · fuel missing)) last = onward found fuel missing last :=
          bind_ok (congrFun (ends fuel above) missing)
        cases rest found middle ran grows goesOn with
        | done gives =>
            obtain ⟨enough', ends'⟩ := gives
            exact .done ⟨max enough enough', fun fuel above => funext fun missing =>
              (skips fuel (by omega) missing).trans (congrFun (ends' fuel (by omega)) missing)⟩
        | fails stops =>
            obtain ⟨enough', ends'⟩ := stops
            exact .fails ⟨max enough enough', fun fuel above => funext fun missing =>
              (congrArg Prod.fst (skips fuel (by omega) missing)).trans
                (congrFun (ends' fuel (by omega)) missing)⟩
        | waits stops waits =>
            obtain ⟨enough', ends'⟩ := stops
            exact .waits ⟨max enough enough', fun fuel above => funext fun missing =>
              (congrArg Prod.fst (skips fuel (by omega) missing)).trans
                (congrFun (ends' fuel (by omega)) missing)⟩ waits

theorem congr {other : Nat → (SchemaId → SchemaError) → Run α} {answer : Except SchemaError α}
    (recalls : Recalls last waiting again answer)
    (same : ∀ fuel missing, other fuel missing last = again fuel missing last) :
    Recalls last waiting other answer := by
  have gives : (fun fuel missing => other fuel missing last) = fun fuel missing => again fuel missing last :=
    funext fun fuel => funext fun missing => same fuel missing
  have stops : (fun fuel missing => (other fuel missing last).1) = fun fuel missing => (again fuel missing last).1 :=
    funext fun fuel => funext fun missing => congrArg Prod.fst (same fuel missing)
  cases recalls with
  | done converges => exact .done (gives ▸ converges)
  | fails converges => exact .fails (stops ▸ converges)
  | waits converges waits => exact .waits (stops ▸ converges) waits

theorem pure (answer : α) : Recalls last waiting (fun _ _ => (pure answer : Run α)) (.ok answer) :=
  .done (.const _)

theorem fail (error : SchemaError) :
    Recalls last waiting (fun _ _ => (Run.fail error : Run α)) (.error error) :=
  .fails (.const _)

end Recalls

theorem resolve_recalls {answer : Except SchemaError SchemaId} (present : id.index < before.arena.size)
    (answers : Answers core last (resolveWithin limit steps id) before answer) :
    Recalls last waiting (fun fuel _ => resolveWithin 0 fuel id) answer := by
  have stable : Stable core (resolveWithin limit steps id) := resolveWithin_stable limit steps id
  have grows := answers.grows stable
  rcases answers.outcome stable with ⟨error, rfl⟩ | ⟨target, after, ran, -, ends, rfl⟩
  · have linked : (World.same before last).Linked core := .same answers.sound grows.sound grows.grown
    exact .fails ⟨steps, fun fuel above => funext fun _ => answers.fails
      ((resolveWithin_agrees limit steps 0 fuel _ id id linked ⟨rfl, present⟩).weaken (Nat.not_lt.mpr above))⟩
  · have resolves := ((resolveWithin_meets limit steps id before answers.sound).answers _ _ ran).1
    refine .done ⟨1, fun fuel enough => funext fun _ => ?_⟩
    obtain ⟨fewer, rfl⟩ := Nat.exists_eq_add_of_le' enough
    exact resolves.lasts 0 fewer last ends.grown

theorem node_recalls {node : Node} (found : last.arena.get? id = some node) :
    Recalls last waiting (fun _ _ => Run.node id) (.ok node) :=
  .done ⟨0, fun _ _ => funext fun _ => node_apply found⟩

/-- The shape that a state knows, or else a failure that tells which one is missing. -/
def recallOr (state : ResolverState) (missing : SchemaId → SchemaError) (id : SchemaId) : Run Shape :=
  match state.shapes.find? id with
  | some shape => pure shape
  | none => Run.fail (missing id)

theorem recallOr_known (known : last.shapes.find? id = some shape) (missing : SchemaId → SchemaError)
    (state : ResolverState) : recallOr last missing id state = (.ok shape, state) := by
  simp only [recallOr, known, pure_apply]

theorem recallOr_unknown (unknown : last.shapes.find? id = none) (missing : SchemaId → SchemaError)
    (state : ResolverState) : recallOr last missing id state = (.error (missing id), state) := by
  simp only [recallOr, unknown]
  rfl

/-- The nodes are there, and the last state knows none of their shapes. -/
def Unmet (last before : ResolverState) (chain : List SchemaId) : Prop :=
  ∀ id ∈ chain, id.index < before.arena.size ∧ last.shapes.find? id = none

theorem Unmet.later (unmet : Unmet last before chain) (grown : before ≤ middle) : Unmet last middle chain :=
  fun id listed => ⟨Nat.lt_of_lt_of_le (unmet id listed).1 (ResolverState.size_mono grown), (unmet id listed).2⟩

/-- A shape that cannot be computed is not known later on. -/
theorem unknown_of_fails (unmet : Unmet last before chain) (present : id.index < before.arena.size)
    (answers : Answers core last (flattenWithin limit steps chain id) before (.error error)) :
    last.shapes.find? id = none := by
  have grows := answers.grows (flattenWithin_stable limit steps chain id)
  cases known : last.shapes.find? id with
  | none => rfl
  | some shape =>
      have agrees := (steps_agree limit steps).2.1 chain last.shapes.entries (.same before last) id id
        (.same answers.sound grows.sound grows.grown) (List.suffix_refl _)
        (fun earlier listed _ => ⟨earlier, ⟨rfl, (unmet earlier listed).1⟩, (unmet earlier listed).2⟩)
        ⟨rfl, present⟩
      rw [recallShape_some known] at agrees
      have settled := agrees.settled rfl
      cases (answers.fails settled : (.ok shape : Except SchemaError Shape) = .error error)

/-- A shape is asked for that cannot be computed. -/
structure Awaits (core : Nat) (last : ResolverState) (limit steps : Nat) (chain : List SchemaId)
    (before : ResolverState) (id : SchemaId) (error : SchemaError) : Prop where
  unmet : Unmet last before chain
  present : id.index < before.arena.size
  fails : Answers core last (flattenWithin limit steps chain id) before (.error error)

/-- A shape is asked for on the way that cannot be computed. -/
def Waits (core : Nat) (last : ResolverState) (limit steps : Nat) (chain : List SchemaId) (id : SchemaId)
    (error : SchemaError) : Prop :=
  ∃ before, Awaits core last limit steps chain before id error

section

variable {answer : Except SchemaError Shape} {parents : List SchemaId}

theorem flatten_recalls (unmet : Unmet last before chain) (present : id.index < before.arena.size)
    (answers : Answers core last (flattenWithin limit steps chain id) before answer) :
    Recalls last (Waits core last limit steps chain) (fun _ missing => recallOr last missing id) answer := by
  have stable : Stable core (flattenWithin limit steps chain id) := flattenWithin_stable limit steps chain id
  rcases answers.outcome stable with ⟨error, rfl⟩ | ⟨shape, after, ran, -, ends, rfl⟩
  · have unknown := unknown_of_fails unmet present answers
    exact .waits ⟨0, fun _ _ => funext fun missing =>
      congrArg Prod.fst (recallOr_unknown unknown missing last)⟩
      ⟨before, unmet, present, answers⟩
  · have known := ((flattenWithin_meets limit steps chain id before answers.sound).answers _ _ ran).1
    have later := ResolverState.shape_later known ends.grown
    exact .done ⟨0, fun _ _ => funext fun missing => recallOr_known later missing last⟩

theorem shapeBehind_recalls (unmet : Unmet last before chain) (present : target.index < before.arena.size)
    (reject : Kind → SchemaError)
    (answers : Answers core last (shapeBehind (resolveWithin limit steps) (flattenWithin limit steps chain)
      reject target) before answer) :
    Recalls last (Waits core last limit steps chain)
      (fun fuel missing => shapeBehind (resolveWithin 0 fuel) (recallOr last missing) reject target) answer := by
  have onward (resolved : SchemaId) (node : Node) : Stable core (if node.isInterfaceLike then
      flattenWithin limit steps chain resolved else Run.fail (reject node.kind)) := by
    split
    · exact flattenWithin_stable limit steps chain resolved
    · exact .fail _
  refine .bind answers (resolveWithin_stable limit steps target)
    (fun resolved => .bind (.node resolved) (onward resolved)) (fun _ => resolve_recalls present) ?_
  intro resolved middle ran grows goesOn
  obtain ⟨node, found, -⟩ := ((resolveWithin_meets limit steps target before answers.sound).answers _ _ ran).2.1
  have later := ResolverState.get?_later found (goesOn.grows (.bind (.node resolved) (onward resolved))).grown
  refine .bind goesOn (.node resolved) (onward resolved) (fun answer reads => ?_) ?_
  · cases reads.ok_eq (node_apply found)
    exact node_recalls later
  · rintro node' middle' reads - ends
    cases (node_apply found).symm.trans reads
    cases like : node.isInterfaceLike with
    | true =>
        simp only [like, if_true] at ends ⊢
        exact flatten_recalls (unmet.later grows.grown) (Arena.index_lt_size found) ends
    | false =>
        simp only [like] at ends ⊢
        cases ends.error_eq rfl
        exact .fail _

theorem inherit_stable (shape : Shape) (parents : List SchemaId) : Stable core
    (inheritParents (resolveWithin limit steps) (flattenWithin limit steps chain) shape parents) :=
  inheritParents_stable (resolveWithin_stable limit steps) (flattenWithin_stable limit steps chain) shape parents

theorem inheritNode_stable (shape : Shape) (rest : List SchemaId) (resolved : SchemaId) (node : Node) :
    Stable core (match node with
      | .interface _ _ _ => flattenWithin limit steps chain resolved >>= fun inherited =>
          inheritParents (resolveWithin limit steps) (flattenWithin limit steps chain) (shape.inherit inherited) rest
      | node => Run.fail (.nonInterfaceParent node.kind)) := by
  cases node with
  | interface _ _ _ => exact .bind (flattenWithin_stable limit steps chain resolved) fun _ => inherit_stable _ rest
  | _ => exact .fail _

theorem inheritParents_recalls (unmet : Unmet last before chain)
    (present : ∀ parent ∈ parents, parent.index < before.arena.size)
    (answers : Answers core last (inheritParents (resolveWithin limit steps) (flattenWithin limit steps chain)
      shape parents) before answer) :
    Recalls last (Waits core last limit steps chain)
      (fun fuel missing => inheritParents (resolveWithin 0 fuel) (recallOr last missing) shape parents)
      answer := by
  induction parents generalizing shape before with
  | nil =>
      cases answers.ok_eq rfl
      exact .pure shape
  | cons parent rest ih =>
      refine .bind answers (resolveWithin_stable limit steps parent)
        (fun resolved => .bind (.node resolved) (inheritNode_stable shape rest resolved))
        (fun _ => resolve_recalls (present parent (List.mem_cons_self ..))) ?_
      intro resolved middle ran grows goesOn
      obtain ⟨node, found, -⟩ :=
        ((resolveWithin_meets limit steps parent before answers.sound).answers _ _ ran).2.1
      have grows' : Grows core middle last :=
        goesOn.grows (.bind (.node resolved) (inheritNode_stable shape rest resolved))
      have later := ResolverState.get?_later found grows'.grown
      refine .bind goesOn (.node resolved) (inheritNode_stable shape rest resolved) (fun answer reads => ?_) ?_
      · cases reads.ok_eq (node_apply found)
        exact node_recalls later
      · rintro node' middle' reads - ends
        cases (node_apply found).symm.trans reads
        cases node with
        | interface _ _ _ =>
            refine .bind ends (flattenWithin_stable limit steps chain resolved) (fun _ => inherit_stable _ rest)
              (fun _ => flatten_recalls (unmet.later grows.grown) (Arena.index_lt_size found)) ?_
            intro inherited middle' _ grows' ends'
            have grown := le_trans grows.grown grows'.grown
            exact ih (unmet.later grown) (fun other listed => Nat.lt_of_lt_of_le
              (present other (List.mem_cons_of_mem _ listed)) (ResolverState.size_mono grown)) ends'
        | _ =>
            cases ends.error_eq rfl
            exact .fail _

theorem combine_recalls {combinator : Combinator} (unmet : Unmet last before chain)
    (present : ∀ patch ∈ combinator.children, patch.index < before.arena.size)
    (answers : Answers core last (combine (flattenWithin limit steps chain) base combinator) before answer) :
    Recalls last (Waits core last limit steps chain)
      (fun _ missing => combine (recallOr last missing) base combinator) answer := by
  cases combinator with
  | pick keys =>
      simp only [combine] at answers ⊢
      cases picked : base.pick keys with
      | ok shape =>
          rw [picked] at answers
          cases answers.ok_eq rfl
          exact .pure shape
      | error error =>
          rw [picked] at answers
          cases answers.error_eq rfl
          exact .fail error
  | optional | without keys =>
      cases answers.ok_eq rfl
      exact .pure _
  | overwrite patch =>
      refine .bind answers (flattenWithin_stable limit steps chain patch) (fun _ => .pure _)
        (fun _ => flatten_recalls unmet (present patch (List.mem_singleton_self _))) ?_
      intro top middle _ _ ends
      cases ends.ok_eq rfl
      exact .pure _

theorem flattenNode_stable (limit steps : Nat) (chain : List SchemaId) (id : SchemaId) :
    Stable core (flattenNode (resolveWithin limit steps) (flattenWithin limit steps chain) id) := by
  refine .bind (.node id) fun node => ?_
  cases node with
  | reference _ | indexedAccess _ _ =>
      exact shapeBehind_stable (resolveWithin_stable limit steps) (flattenWithin_stable limit steps chain)
        .notInterfaceLike id
  | interface properties index parents => exact inherit_stable _ parents
  | mapped combinator object =>
      have flattens (id : SchemaId) : Stable core (flattenWithin limit steps chain id) :=
        flattenWithin_stable limit steps chain id
      exact .bind (flattenTarget_stable (resolveWithin_stable limit steps) flattens combinator object)
        fun base => combine_stable flattens base combinator
  | _ => exact .fail _

/-- What the shape of a node is computed from is known in the last state, or waited for. -/
theorem flattenNode_recalls (unmet : Unmet last before chain) (present : id.index < before.arena.size)
    (answers : Answers core last (flattenNode (resolveWithin limit steps) (flattenWithin limit steps chain) id)
      before answer) :
    Recalls last (Waits core last limit steps chain)
      (fun fuel missing => flattenNode (resolveWithin 0 fuel) (recallOr last missing) id) answer := by
  obtain ⟨node, found⟩ := before.arena.exists_get? id present
  have issued := children_issued answers.sound found
  have body := answers.node found
  have later := ResolverState.get?_later found (answers.grows (flattenNode_stable limit steps chain id)).grown
  cases node with
  | reference _ | indexedAccess _ _ =>
      exact (shapeBehind_recalls unmet present .notInterfaceLike body).congr fun _ _ => bind_ok (node_apply later)
  | interface properties index parents =>
      exact (inheritParents_recalls unmet (fun parent listed => issued parent (by simp [Node.children, listed]))
        body).congr fun _ _ => bind_ok (node_apply later)
  | mapped combinator object =>
      have flattens (id : SchemaId) : Stable core (flattenWithin limit steps chain id) :=
        flattenWithin_stable limit steps chain id
      have combines (base : Shape) := combine_stable flattens base combinator
      have whole : Answers core last (flattenTarget (resolveWithin limit steps) (flattenWithin limit steps chain)
        combinator object >>= fun base => combine (flattenWithin limit steps chain) base combinator) before
        answer := body
      refine (Recalls.bind whole (flattenTarget_stable (resolveWithin_stable limit steps) flattens combinator
        object) combines (fun _ => shapeBehind_recalls unmet (issued object (List.mem_cons_self ..))
          (.invalidCombinatorTarget combinator.kind)) ?_).congr fun _ _ => bind_ok (node_apply later)
      intro base middle _ grows ends
      exact combine_recalls (unmet.later grows.grown) (fun patch listed => Nat.lt_of_lt_of_le
        (issued patch (List.mem_cons_of_mem _ listed)) (ResolverState.size_mono grows.grown)) ends
  | _ =>
      cases body.error_eq rfl
      exact (Recalls.fail _).congr fun _ _ => bind_ok (node_apply later)

end

end Conform.Alias
