import Conform.Proofs.Regular.Basic
import Conform.Proofs.Resolver.Following

/-! Chains of references.  A chain that meets no indexed access is followed to its end, or up
to the first node that it meets again, whatever its length. -/

namespace Conform

def Node.isAccess : Node → Bool
  | .indexedAccess _ _ => true
  | _ => false

namespace Arena

variable {arena : Arena} {id next last node : SchemaId} {place later first again : Nat}
  {answer other : Except SchemaError SchemaId}

/-- The node at a place of the chain of references that starts with `id`. -/
def chainAt (arena : Arena) (id : SchemaId) : Nat → Option SchemaId
  | 0 => some id
  | place + 1 => (arena.chainAt id place).bind arena.referent?

/-- No indexed access is on the chain. -/
def AccessFree (arena : Arena) (id : SchemaId) : Prop :=
  ∀ place last node, arena.chainAt id place = some last → arena.get? last = some node →
    node.isAccess = false

/-- No node is an indexed access. -/
def NoAccess (arena : Arena) : Prop :=
  ∀ id node, arena.get? id = some node → node.isAccess = false

instance (arena : Arena) : Decidable arena.NoAccess :=
  decidable_of_iff (∀ index < arena.size, ∀ node ∈ arena.get? ⟨index⟩, node.isAccess = false)
    ⟨fun all id node found => all id.index (index_lt_size found) node found,
      fun all index _ node found => all ⟨index⟩ node found⟩

theorem NoAccess.accessFree (none : arena.NoAccess) (id : SchemaId) : arena.AccessFree id :=
  fun _ last node _ found => none last node found

/-- What following a chain of references comes to. -/
inductive ChainEnds (arena : Arena) (id : SchemaId) : Except SchemaError SchemaId → Prop
  | concrete {place : Nat} {last : SchemaId} {node : Node} (reached : arena.chainAt id place = some last)
      (found : arena.get? last = some node) (concrete : node.IsConcrete) : ChainEnds arena id (.ok last)
  | unknown {place : Nat} {last : SchemaId} (reached : arena.chainAt id place = some last)
      (unknown : arena.get? last = none) : ChainEnds arena id (.error (.unknownId last))
  | malformed {place : Nat} {last : SchemaId} {target : String}
      (reached : arena.chainAt id place = some last)
      (found : arena.get? last = some (.reference target)) (malformed : Address.ofTarget? target = none) :
      ChainEnds arena id (.error (.malformedTarget target))
  | missing {place : Nat} {last : SchemaId} {target : String} {address : Address}
      (reached : arena.chainAt id place = some last)
      (found : arena.get? last = some (.reference target))
      (parsed : Address.ofTarget? target = some address)
      (missing : arena.symbol? address.path address.symbol = none) :
      ChainEnds arena id (.error (.missingTarget target))
  /-- The node at `again` is the first one that is met for the second time. -/
  | cycle {first again : Nat} {node : SchemaId} {target : String} (earlier : first < again)
      (reached : arena.chainAt id first = some node) (repeated : arena.chainAt id again = some node)
      (distinct : ∀ left right, left < right → right < again →
        arena.chainAt id left ≠ arena.chainAt id right)
      (found : arena.get? node = some (.reference target)) :
      ChainEnds arena id (.error (.referenceCycle target))

theorem chainAt_earlier (reached : arena.chainAt id later = some last) (earlier : place ≤ later) :
    ∃ node, arena.chainAt id place = some node := by
  induction later generalizing last with
  | zero =>
      cases Nat.le_zero.mp earlier
      exact ⟨last, reached⟩
  | succ later ih =>
      rcases Nat.lt_or_eq_of_le earlier with below | rfl
      · obtain ⟨node, before, -⟩ := Option.bind_eq_some_iff.mp reached
        exact ih before (Nat.le_of_lt_succ below)
      · exact ⟨last, reached⟩

theorem chainAt_add (place further : Nat) : arena.chainAt id (place + further) =
    (arena.chainAt id place).bind (arena.chainAt · further) := by
  induction further with
  | zero => simp [chainAt]
  | succ further ih =>
      rw [← Nat.add_assoc, chainAt, ih, Option.bind_assoc]
      rfl

/-- Once a node is met again the chain goes on as it did before. -/
theorem chainAt_infinite (earlier : first < again) (reached : arena.chainAt id first = some node)
    (repeated : arena.chainAt id again = some node) (place : Nat) :
    (arena.chainAt id place).isSome = true := by
  induction place using Nat.strong_induction_on with
  | _ place ih =>
      by_cases inside : place ≤ again
      · exact Option.isSome_iff_exists.mpr (chainAt_earlier repeated inside)
      · have shifted : arena.chainAt id place = arena.chainAt id (first + (place - again)) := by
          have split : place = again + (place - again) := by omega
          rw [split, chainAt_add, repeated, Nat.add_sub_cancel_left, chainAt_add, reached]
        rw [shifted]
        exact ih _ (by omega)

/-- A chain that leads on no further has one place where it stops. -/
theorem stop_unique (reached : arena.chainAt id place = some last) (stops : arena.referent? last = none)
    (reached' : arena.chainAt id later = some next) (stops' : arena.referent? next = none) :
    last = next := by
  have ended {place later : Nat} {last next : SchemaId} (reached : arena.chainAt id place = some last)
      (stops : arena.referent? last = none) (reached' : arena.chainAt id later = some next) :
      later ≤ place := by
    by_contra beyond
    obtain ⟨onward, found⟩ := chainAt_earlier reached' (Nat.lt_of_not_le beyond)
    simp [chainAt, reached, stops] at found
  have same := Nat.le_antisymm (ended reached' stops' reached) (ended reached stops reached')
  subst same
  exact Option.some.inj (reached.symm.trans reached')

/-- What the last node of a chain makes of it. -/
def answerAt (arena : Arena) (last : SchemaId) : Except SchemaError SchemaId :=
  match arena.get? last with
  | none => .error (.unknownId last)
  | some (.reference target) =>
      if (Address.ofTarget? target).isSome then .error (.missingTarget target)
      else .error (.malformedTarget target)
  | some _ => .ok last

theorem ChainEnds.stops (ends : arena.ChainEnds id answer) :
    (∃ place last, arena.chainAt id place = some last ∧ arena.referent? last = none ∧
        arena.answerAt last = answer) ∨
      ∃ first again node target, first < again ∧ arena.chainAt id first = some node ∧
        arena.chainAt id again = some node ∧
        (∀ left right, left < right → right < again →
          arena.chainAt id left ≠ arena.chainAt id right) ∧
        arena.get? node = some (.reference target) ∧ answer = .error (.referenceCycle target) := by
  cases ends with
  | @concrete place last node reached found concrete =>
      refine .inl ⟨place, last, reached, referent?_concrete found concrete, ?_⟩
      cases node <;> first | exact concrete.elim | simp [answerAt, found]
  | @unknown place last reached unknown =>
      exact .inl ⟨place, last, reached, by simp [referent?, unknown], by simp [answerAt, unknown]⟩
  | @malformed place last target reached found malformed =>
      exact .inl ⟨place, last, reached, by simp [referent?, found, malformed],
        by simp [answerAt, found, malformed]⟩
  | @missing place last target address reached found parsed missing =>
      exact .inl ⟨place, last, reached, by simp [referent?, found, parsed, missing],
        by simp [answerAt, found, parsed]⟩
  | cycle earlier reached repeated distinct found =>
      exact .inr ⟨_, _, _, _, earlier, reached, repeated, distinct, found, rfl⟩

/-- A chain comes to one thing only. -/
theorem ChainEnds.unique (ends : arena.ChainEnds id answer) (same : arena.ChainEnds id other) :
    answer = other := by
  have endless {place first again : Nat} {last node : SchemaId}
      (reached : arena.chainAt id place = some last) (stops : arena.referent? last = none)
      (earlier : first < again) (met : arena.chainAt id first = some node)
      (repeated : arena.chainAt id again = some node) : False := by
    have onward := chainAt_infinite earlier met repeated (place + 1)
    simp [chainAt, reached, stops] at onward
  rcases ends.stops with ⟨place, last, reached, stops, rfl⟩ | ⟨first, again, node, target, earlier,
    reached, repeated, distinct, found, rfl⟩
  · rcases same.stops with ⟨_, last', reached', stops', rfl⟩ | ⟨_, _, _, _, earlier, met, repeated, -⟩
    · rw [stop_unique reached stops reached' stops']
    · exact (endless reached stops earlier met repeated).elim
  · rcases same.stops with ⟨_, _, reached', stops', -⟩ | ⟨first', again', node', target', earlier',
      reached', repeated', distinct', found', rfl⟩
    · exact (endless reached' stops' earlier reached repeated).elim
    · have same : again = again' := by
        rcases Nat.lt_trichotomy again again' with below | same | above
        · exact (distinct' first again earlier below (reached.trans repeated.symm)).elim
        · exact same
        · exact (distinct first' again' earlier' above (reached'.trans repeated'.symm)).elim
      subst same
      cases repeated.symm.trans repeated'
      cases found.symm.trans found'
      rfl

/-- The chain is infinite where it closes a cycle, and only there. -/
theorem ChainEnds.infinite_iff (ends : arena.ChainEnds id answer) :
    (∃ target, answer = .error (.referenceCycle target)) ↔
      ∀ place, (arena.chainAt id place).isSome = true := by
  constructor
  · intro cyclic
    obtain ⟨target, rfl⟩ := cyclic
    cases ends with
    | cycle earlier reached repeated _ _ => exact chainAt_infinite earlier reached repeated
  · intro infinite
    rcases ends.stops with ⟨place, last, reached, stops, -⟩ | ⟨_, _, _, target, _, _, _, _, _, same⟩
    · have onward := infinite (place + 1)
      simp [chainAt, reached, stops] at onward
    · exact ⟨target, same⟩

end Arena

namespace Resolver

open Run

variable {state : ResolverState} {id current : SchemaId} {size hops place : Nat}
  {visited : List SchemaId} {project : SchemaId → SchemaId → String → Run SchemaId}

/-- The chain has been followed up to a node, without meeting one twice. -/
structure Followed (arena : Arena) (id : SchemaId) (visited : List SchemaId) (place : Nat)
    (current : SchemaId) : Prop where
  reached : arena.chainAt id place = some current
  met : ∀ node, node ∈ visited ↔ ∃ earlier < place, arena.chainAt id earlier = some node
  distinct : ∀ left right, left < right → right < place →
    arena.chainAt id left ≠ arena.chainAt id right

theorem Followed.start (arena : Arena) (id : SchemaId) : Followed arena id [] 0 id :=
  ⟨rfl, by simp, by omega⟩

theorem Followed.next {next : SchemaId} {arena : Arena} (followed : Followed arena id visited place current)
    (unmet : current ∉ visited) (refers : arena.referent? current = some next) :
    Followed arena id (current :: visited) (place + 1) next where
  reached := by simp [Arena.chainAt, followed.reached, refers]
  met := by
    intro node
    rw [List.mem_cons, followed.met]
    constructor
    · intro listed
      rcases listed with rfl | ⟨earlier, below, reached⟩
      · exact ⟨place, by omega, followed.reached⟩
      · exact ⟨earlier, by omega, reached⟩
    · intro listed
      obtain ⟨earlier, below, reached⟩ := listed
      rcases Nat.lt_or_eq_of_le (Nat.le_of_lt_succ below) with inside | rfl
      · exact .inr ⟨earlier, inside, reached⟩
      · exact .inl (Option.some.inj (reached.symm.trans followed.reached))
  distinct := by
    intro left right before below same
    rcases Nat.lt_or_eq_of_le (Nat.le_of_lt_succ below) with inside | rfl
    · exact followed.distinct left right before inside same
    · exact unmet ((followed.met current).mpr ⟨left, before, same.trans followed.reached⟩)

/-- A node that is met again closes a cycle. -/
theorem Followed.closes (followed : Followed state.arena id visited place current)
    (met : current ∈ visited) :
    ∃ answer, closeChain current state = (answer, state) ∧ state.arena.ChainEnds id answer := by
  obtain ⟨first, earlier, reached⟩ := (followed.met current).mp met
  obtain ⟨next, onward⟩ := Arena.chainAt_earlier followed.reached earlier
  have reference : ∃ target, state.arena.get? current = some (.reference target) := by
    simp only [Arena.chainAt, reached, Option.bind_some, Arena.referent?] at onward
    split at onward
    · exact ⟨_, ‹_›⟩
    · cases onward
  obtain ⟨target, found⟩ := reference
  exact ⟨_, bind_ok (node_apply found),
    .cycle earlier reached followed.reached followed.distinct found⟩

/-- A chain that goes on is at a reference that was not met before. -/
theorem Followed.settles (followed : Followed state.arena id visited place current)
    (free : state.arena.AccessFree id) (hops : Nat) :
    (current ∉ visited ∧ ∃ target, state.arena.get? current = some (.reference target)) ∨
      ∃ answer, follow project hops visited current state = (answer, state) ∧
        state.arena.ChainEnds id answer := by
  by_cases met : current ∈ visited
  · rw [follow_met (List.contains_iff_mem.mpr met)]
    exact .inr (followed.closes met)
  cases found : state.arena.get? current with
  | none =>
      have stuck : follow project hops visited current state = (.error (.unknownId current), state) := by
        cases hops with
        | zero => exact bind_error (node_missing found)
        | succ hops =>
            rw [follow_unmet (mt List.contains_iff_mem.mp met)]
            exact bind_error (bind_error (node_missing found))
      exact .inr ⟨_, stuck, .unknown followed.reached found⟩
  | some node =>
      cases node with
      | reference target => exact .inl ⟨met, target, rfl⟩
      | indexedAccess object index => cases free place current _ followed.reached found
      | _ => exact .inr ⟨_, (follow_concrete found trivial hops visited).now,
          .concrete followed.reached found trivial⟩

theorem Followed.onward {target : String} (followed : Followed state.arena id visited place current)
    (found : state.arena.get? current = some (.reference target)) :
    (∃ next, state.arena.referent? current = some next ∧
        hop project current state = (.ok (some next), state)) ∨
      ∃ error, hop project current state = (.error error, state) ∧
        state.arena.ChainEnds id (.error error) := by
  rw [hop_reference found]
  cases parsed : Address.ofTarget? target with
  | none =>
      have fails : state.arena.named target = .error (.malformedTarget target) := by
        simp only [Arena.named, parsed]
      rw [fails]
      exact .inr ⟨_, rfl, .malformed followed.reached found parsed⟩
  | some address =>
      cases named : state.arena.symbol? address.path address.symbol with
      | none =>
          have fails : state.arena.named target = .error (.missingTarget target) := by
            simp only [Arena.named, parsed, named]
          rw [fails]
          exact .inr ⟨_, rfl, .missing followed.reached found parsed named⟩
      | some next =>
          have leads : state.arena.named target = .ok next := by
            simp only [Arena.named, parsed, named]
          rw [leads]
          exact .inl ⟨next, by simp [Arena.referent?, found, parsed, named], rfl⟩

/-- A chain without indexed accesses is followed to what it comes to.  The hops do not run out
before: each one leaves a node behind that was not met before. -/
theorem follow_chain (free : state.arena.AccessFree id)
    (followed : Followed state.arena id visited place current) (enough : Enough size hops visited state) :
    ∃ answer, follow project hops visited current state = (answer, state) ∧
      state.arena.ChainEnds id answer := by
  induction hops generalizing visited place current with
  | zero =>
      rcases followed.settles free 0 with ⟨unmet, target, found⟩ | settled
      · exact (unmet (enough.met found nofun)).elim
      · exact settled
  | succ hops ih =>
      rcases followed.settles free (hops + 1) with ⟨unmet, target, found⟩ | settled
      · rw [follow_unmet (mt List.contains_iff_mem.mp unmet)]
        rcases followed.onward found with ⟨next, refers, hopped⟩ | ⟨error, failed, ends⟩
        · rw [bind_ok hopped]
          exact ih (followed.next unmet refers) (enough.cons found nofun unmet)
        · exact ⟨_, bind_error failed, ends⟩
      · exact settled

/-- Without indexed accesses a resolution takes a single step and adds nothing. -/
theorem resolveWithin_chain (free : state.arena.AccessFree id) (limit steps : Nat) :
    ∃ answer, resolveWithin limit (steps + 1) id state = (answer, state) ∧
      state.arena.ChainEnds id answer :=
  follow_chain free (.start state.arena id) (.start state)

end Resolver

end Conform
