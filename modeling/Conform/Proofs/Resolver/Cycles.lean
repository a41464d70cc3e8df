import Conform.Proofs.Agreement.Resolving
import Conform.Proofs.Resolver.Chains
import Conform.Proofs.Resolver.Inheriting

/-! Cycles of inheritance.  The nodes whose shapes are being computed form a trail, so one of
them that is met again lies on a cycle.  A shape that is known comes from shapes that were known
before it, so no cycle can be reached from its node. -/

namespace Conform

open Relation Run Resolver

namespace Arena

variable {arena : Arena} {resolves : SchemaId → SchemaId → Prop} {id next parent target : SchemaId}
  {parents chain : List SchemaId} {shape start : Shape} {own : List Property}
  {index : Option IndexSignature} {combinator : Combinator} {error : SchemaError} {limit steps : Nat}

/-- What the shape of a node is computed from. -/
inductive DependsOn (arena : Arena) (resolves : SchemaId → SchemaId → Prop) : SchemaId → SchemaId → Prop
  | parent {id parent resolved : SchemaId} {own : List Property} {index : Option IndexSignature}
      {parents : List SchemaId} (node : arena.get? id = some (.interface own index parents))
      (listed : parent ∈ parents) (leads : resolves parent resolved) : DependsOn arena resolves id resolved
  | target {id target resolved : SchemaId} {combinator : Combinator}
      (node : arena.get? id = some (.mapped combinator target)) (leads : resolves target resolved) :
      DependsOn arena resolves id resolved
  | patch {id target patch : SchemaId} (node : arena.get? id = some (.mapped (.overwrite patch) target)) :
      DependsOn arena resolves id patch
  | reference {id resolved : SchemaId} {target : String}
      (node : arena.get? id = some (.reference target)) (leads : resolves id resolved) :
      DependsOn arena resolves id resolved

/-- What a chain of references ends at. -/
def Ends (arena : Arena) (id resolved : SchemaId) : Prop :=
  arena.ChainEnds id (.ok resolved)

/-- Neither does the limit stop the search for a shape, nor does it find a cycle that is not there. -/
def Justifies (relation : SchemaId → SchemaId → Prop) (id : SchemaId) : SchemaError → Prop
  | .depthLimitExceeded _ => False
  | .cyclicInheritance other => ReflTransGen relation id other ∧ TransGen relation other other
  | _ => True

theorem Justifies.behind {relation : SchemaId → SchemaId → Prop} (justifies : Justifies relation next error)
    (step : relation id next) : Justifies relation id error := by
  cases error with
  | cyclicInheritance other => exact ⟨.head step justifies.1, justifies.2⟩
  | depthLimitExceeded limit => exact justifies
  | _ => trivial

/-- From every state with the arena the run leaves the arena as it is; its answers and its errors
are as described. -/
def Confined {α : Type} (arena : Arena) (run : Run α) (post : α → Prop) (failed : SchemaError → Prop) :
    Prop :=
  ∀ state, state.arena = arena → (run state).2.arena = arena ∧
    match (run state).1 with
    | .ok answer => post answer
    | .error error => failed error

namespace Confined

variable {α β : Type} {run first : Run α} {next : α → Run β} {post : α → Prop} {goal : β → Prop}
  {failed weaker : SchemaError → Prop}

theorem pure {answer : α} (answers : post answer) : Confined arena (pure answer : Run α) post failed :=
  fun _ same => ⟨same, answers⟩

theorem fail (fails : failed error) : Confined arena (Run.fail error : Run α) post failed :=
  fun _ same => ⟨same, fails⟩

theorem bind (part : Confined arena first post failed)
    (rest : ∀ answer, post answer → Confined arena (next answer) goal failed) :
    Confined arena (first >>= next) goal failed := by
  intro state same
  obtain ⟨kept, answers⟩ := part state same
  cases ran : first state with
  | mk outcome middle =>
      rw [ran] at kept answers
      cases outcome with
      | ok answer =>
          rw [bind_ok ran]
          exact rest answer answers middle kept
      | error error =>
          rw [bind_error ran]
          exact ⟨kept, answers⟩

theorem weaken (confined : Confined arena run post failed) (implies : ∀ error, failed error → weaker error) :
    Confined arena run post weaker := by
  intro state same
  obtain ⟨kept, answers⟩ := confined state same
  refine ⟨kept, ?_⟩
  cases outcome : (run state).1 with
  | ok answer => simpa only [outcome] using answers
  | error error =>
      rw [outcome] at answers
      exact implies error answers

theorem read (part : ResolverState → α) : Confined arena (Run.read part) (fun _ => True) failed :=
  fun _ same => ⟨same, trivial⟩

theorem keepShape {shape : Shape} : Confined arena (Run.keepShape id shape) (fun _ => True) failed :=
  fun _ same => ⟨same, trivial⟩

theorem node (missing : failed (.unknownId id)) :
    Confined arena (Run.node id) (fun node => arena.get? id = some node) failed := by
  intro state same
  subst same
  cases found : state.arena.get? id with
  | some node =>
      rw [node_apply found]
      exact ⟨rfl, rfl⟩
  | none =>
      rw [node_missing found]
      exact ⟨rfl, missing⟩

end Confined

/-- An error of resolution. -/
theorem resolveWithin_confined (none : arena.NoAccess) (limit : Nat) (left : 0 < steps) (origin id : SchemaId) :
    Confined arena (resolveWithin limit steps id) (arena.Ends id)
      (Justifies (arena.DependsOn arena.Ends) origin) := by
  intro state same
  subst same
  obtain ⟨fewer, rfl⟩ := Nat.exists_eq_add_one.mpr left
  obtain ⟨answer, ran, ends⟩ := resolveWithin_chain (none.accessFree id) limit fewer
  rw [ran]
  refine ⟨rfl, ?_⟩
  cases answer with
  | ok resolved => exact ends
  | error error => cases ends <;> trivial

section

variable {resolve : SchemaId → Run SchemaId} {flatten : SchemaId → Run Shape}
  {relation : SchemaId → SchemaId → Prop}

theorem inheritParents_confined
    (parts : ∀ parent ∈ parents, Confined arena (resolve parent) (resolves parent) (Justifies relation id))
    (flattens : ∀ parent ∈ parents, ∀ resolved, resolves parent resolved →
      Confined arena (flatten resolved) (fun _ => True) (Justifies relation id)) :
    Confined arena (inheritParents resolve flatten start parents) (fun _ => True) (Justifies relation id) := by
  induction parents generalizing start with
  | nil => exact .pure trivial
  | cons parent rest ih =>
      apply Confined.bind (parts parent (by simp))
      intro resolved leads
      apply Confined.bind (.node trivial)
      intro node _
      cases node with
      | interface _ _ _ =>
          apply Confined.bind (flattens parent (by simp) resolved leads)
          intro inherited _
          exact ih (fun other listed => parts other (by simp [listed]))
            fun other listed => flattens other (by simp [listed])
      | _ => exact .fail trivial

theorem shapeBehind_confined (reject : Kind → SchemaError)
    (rejects : ∀ kind, Justifies relation id (reject kind))
    (part : Confined arena (resolve target) (resolves target) (Justifies relation id))
    (flattens : ∀ resolved, resolves target resolved →
      Confined arena (flatten resolved) (fun _ => True) (Justifies relation id)) :
    Confined arena (shapeBehind resolve flatten reject target) (fun _ => True)
      (Justifies relation id) := by
  apply Confined.bind part
  intro resolved leads
  apply Confined.bind (.node trivial)
  intro node _
  cases like : node.isInterfaceLike with
  | true =>
      simp only [if_true]
      exact flattens resolved leads
  | false => exact .fail (rejects node.kind)

theorem combine_confined {base : Shape}
    (flattens : ∀ patch, combinator = .overwrite patch →
      Confined arena (flatten patch) (fun _ => True) (Justifies relation id)) :
    Confined arena (combine flatten base combinator) (fun _ => True) (Justifies relation id) := by
  cases combinator with
  | pick keys =>
      cases picked : base.pick keys with
      | ok shape =>
          simp only [combine, picked]
          exact .pure trivial
      | error error =>
          obtain ⟨key, rfl⟩ := Shape.pick_error picked
          simp only [combine, picked]
          exact .fail trivial
  | optional => exact .pure trivial
  | without keys => exact .pure trivial
  | overwrite patch =>
      apply Confined.bind (flattens patch rfl)
      intro top _
      exact .pure trivial

/-- A node is flattened by flattening what it depends on. -/
theorem flattenNode_confined (none : arena.NoAccess)
    (parts : id.index < arena.size → ∀ other,
      Confined arena (resolve other) (resolves other) (Justifies relation id))
    (flattens : id.index < arena.size → ∀ next, arena.DependsOn resolves id next →
      Confined arena (flatten next) (fun _ => True) (Justifies relation id)) :
    Confined arena (flattenNode resolve flatten id) (fun _ => True) (Justifies relation id) := by
  apply Confined.bind (.node trivial)
  intro node found
  have parts := parts (index_lt_size found)
  have flattens := flattens (index_lt_size found)
  cases node with
  | indexedAccess object index => cases none id _ found
  | reference name =>
      exact shapeBehind_confined .notInterfaceLike (fun _ => trivial) (parts id) fun resolved leads =>
        flattens resolved (.reference found leads)
  | interface own index parents =>
      apply inheritParents_confined fun parent _ => parts parent
      intro parent listed resolved leads
      exact flattens resolved (.parent found listed leads)
  | mapped combinator target =>
      apply Confined.bind (shapeBehind_confined (.invalidCombinatorTarget combinator.kind) (fun _ => trivial)
        (parts target) fun resolved leads => flattens resolved (.target found leads))
      intro base _
      apply combine_confined
      intro patch same
      subst same
      exact flattens patch (.patch found)
  | _ => exact .fail trivial

end

theorem unlessKnown_confined {relation : SchemaId → SchemaId → Prop} {compute : Run Shape}
    (circle : id ∈ chain → TransGen relation id id)
    (computes : id ∉ chain → Confined arena compute (fun _ => True) (Justifies relation id)) :
    Confined arena (unlessKnown chain id compute) (fun _ => True) (Justifies relation id) := by
  apply Confined.bind (.read _)
  intro known _
  cases known with
  | some shape => exact .pure trivial
  | none =>
      by_cases met : id ∈ chain
      · simp only [List.contains_iff_mem.mpr met, if_true]
        exact .fail ⟨.refl, circle met⟩
      · simp only [if_neg (mt List.contains_iff_mem.mp met)]
        exact computes met

/-- The nodes on the way are different, so the limit is out of reach, and a node that is met again
is behind itself. -/
theorem flattenWithin_confined (none : arena.NoAccess) (limit : Nat)
    (trail : Trail (arena.DependsOn arena.Ends) arena.size chain id)
    (enough : arena.size < steps + chain.length) :
    Confined arena (flattenWithin limit steps chain id) (fun _ => True)
      (Justifies (arena.DependsOn arena.Ends) id) := by
  induction steps generalizing chain id with
  | zero =>
      have bound := SchemaId.length_le trail.distinct trail.present
      omega
  | succ steps ih =>
      apply unlessKnown_confined (trail.leads id)
      intro unmet
      have flattens : Confined arena (flattenNode (resolveWithin limit steps)
          (flattenWithin limit steps (id :: chain)) id) (fun _ => True)
            (Justifies (arena.DependsOn arena.Ends) id) := by
        apply flattenNode_confined none
        · intro present other
          have short := trail.length_lt unmet present
          exact resolveWithin_confined none limit (by omega) id other
        · intro present next step
          have longer : arena.size < steps + (id :: chain).length := by
            rw [List.length_cons]
            omega
          exact (ih (trail.cons unmet present step) longer).weaken fun _ justifies => justifies.behind step
      apply flattens.bind
      intro shape _
      exact .keepShape

/-- From a node without an infinite way ahead no circle can be reached. -/
theorem no_circle_of_acc {relation : SchemaId → SchemaId → Prop} (ends : Acc (flip relation) id) :
    ∀ other, ReflTransGen relation id other → ¬ TransGen relation other other := by
  induction ends with
  | intro id _ ih =>
      intro other reaches circle
      rcases reaches.cases_head with rfl | ⟨next, step, onward⟩
      · obtain ⟨next, step, back⟩ := TransGen.head'_iff.mp circle
        exact ih next step id back circle
      · exact ih next step other onward circle

end Arena

namespace Resolver

variable {core : Nat} {state : ResolverState} {id next resolved : SchemaId} {shape start : Shape}
  {older : List (SchemaId × Shape)} {parents : List SchemaId}

theorem Resolves.ends (resolves : Resolves state id resolved) (none : state.arena.NoAccess) :
    state.arena.Ends id resolved := by
  obtain ⟨answer, ran, ends⟩ := resolveWithin_chain (none.accessFree id) 0 0
  cases ran.symm.trans resolves.now
  exact ends

/-- All parents were known before. -/
theorem parents_known (sound : state.Sound core)
    (yields : Yields (inheritParents (resolveWithin 0 1) (recallShape older) start parents) state shape) :
    ∀ parent ∈ parents, ∃ resolved base, Resolves state parent resolved ∧
      older.lookup resolved = some base := by
  induction parents generalizing start with
  | nil => simp
  | cons parent rest ih =>
      obtain ⟨resolved, _, _, _, base, resolves, _, known, onward⟩ := inheritParents_yields sound yields
      exact List.forall_mem_cons.mpr ⟨⟨resolved, base, resolves, known⟩, ih onward⟩

/-- What a shape was computed from was known before it. -/
theorem ShapeSound.depends (none : state.arena.NoAccess) (sound : state.Sound core)
    (accounted : ShapeSound core state older id shape)
    (step : state.arena.DependsOn state.arena.Ends id next) : ∃ base, older.lookup next = some base := by
  have onward {inner resolved : SchemaId} {base : Shape} (resolves : Resolves state inner resolved)
      (known : older.lookup resolved = some base) (leads : state.arena.Ends inner next) :
      ∃ base, older.lookup next = some base := by
    cases leads.unique (resolves.ends none)
    exact ⟨base, known⟩
  cases step with
  | parent node listed leads =>
      obtain ⟨resolved, base, resolves, known⟩ :=
        parents_known sound (accounted.inherits node) _ listed
      exact onward resolves known leads
  | target node leads =>
      obtain ⟨resolved, _, base, resolves, _, _, known, -⟩ := accounted.mapped sound node
      exact onward resolves known leads
  | patch node =>
      obtain ⟨_, _, base, _, _, _, _, combines⟩ := accounted.mapped sound node
      obtain ⟨top, known, -⟩ := combine_overwrite_yields sound combines
      exact ⟨top, known⟩
  | reference node leads =>
      cases accounted.source sound with
      | interface found => cases node.symm.trans found
      | mapped found => cases node.symm.trans found
      | follows _ _ resolves _ _ known => exact onward resolves known leads

/-- The entries are in an order in which each one depends on older ones only. -/
theorem known_acc (none : state.arena.NoAccess) (sound : state.Sound core)
    (known : state.shapes.find? id = some shape) :
    Acc (flip (state.arena.DependsOn state.arena.Ends)) id := by
  apply Memo.find?_induction (motive := fun id _ =>
    Acc (flip (state.arena.DependsOn state.arena.Ends)) id) _ known
  intro older id shape suffix earlier
  constructor
  intro next step
  obtain ⟨base, before⟩ := (sound.shapes older id shape suffix).depends none sound step
  exact earlier next base before

end Resolver

end Conform
