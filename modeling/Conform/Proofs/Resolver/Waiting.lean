import Conform.Proofs.Resolver.Stable
import Conform.Proofs.Resolver.Synthesis

/-! Demands that wait.  While a shape or a projection is worked out, nothing is remembered for it,
and it cannot be had in a roundabout way either: whoever asks for it again meanwhile runs into the
same computation with fewer steps left, and so on until none is left.  This is said of families of
runs, one for each number of steps, since an inner computation has fewer steps than the one that
waits for it. -/

namespace Conform.Resolver

open Run

variable {α β : Type} {core limit steps extra bound : Nat} {chain : List SchemaId} {id : SchemaId}
  {state before middle after : ResolverState} {answer : α} {run again : Run α}

/-- The run ends in an error. -/
def Fails (run : Run α) (state : ResolverState) : Prop :=
  ∃ error after, run state = (.error error, after)

theorem Fails.bind {first : Run α} (fails : Fails first state) (next : α → Run β) :
    Fails (first >>= next) state := by
  obtain ⟨error, after, ran⟩ := fails
  exact ⟨error, after, bind_error ran⟩

theorem Fails.not_ok (fails : Fails run state) (ran : run state = (.ok answer, after)) : False := by
  obtain ⟨error, last, failed⟩ := fails
  cases failed.symm.trans ran

/-- The same computation for each number of steps that are left, and for each list of nodes
whose shapes are being computed. -/
abbrev Family (α : Type) : Type :=
  Nat → List SchemaId → Run α

variable {family : Family α} {first : Family α} {next : α → Family β}

/-- With fewer steps left than the bound, the computation fails. -/
def Stuck (family : Family α) (bound : Nat) (state : ResolverState) : Prop :=
  ∀ steps < bound, ∀ chain, Fails (family steps chain) state

theorem Stuck.mono {smaller : Nat} (stuck : Stuck family bound state) (le : smaller ≤ bound) :
    Stuck family smaller state :=
  fun steps below => stuck steps (Nat.lt_of_lt_of_le below le)

/-- The next node of a chain, with the given number of steps left. -/
def hopWithin (limit steps : Nat) (id : SchemaId) : Run (Option SchemaId) :=
  hop (project (resolveWithin limit steps) (flattenWithin limit steps [])) id

/-- The shape of a node, or what an indexed access stands for. -/
inductive Demand where
  | shape (id : SchemaId)
  | projection (id : SchemaId)

namespace Demand

def Unmet (state : ResolverState) : Demand → Prop
  | .shape id => state.shapes.find? id = none
  | .projection id => state.projections.find? id = none

/-- The demand cannot be met with fewer steps than the bound.  A projection takes a step more
than its parts, so that a chain that meets it again has lost one. -/
def Stuck (limit bound : Nat) (state : ResolverState) : Demand → Prop
  | .shape id =>
      Resolver.Stuck (fun steps chain => flattenWithin limit steps chain id) bound state
  | .projection id => Resolver.Stuck (fun steps _ => hopWithin limit steps id) (bound - 1) state

theorem Stuck.mono {demand : Demand} {smaller : Nat} (stuck : demand.Stuck limit bound state)
    (le : smaller ≤ bound) : demand.Stuck limit smaller state := by
  cases demand with
  | shape id => exact Resolver.Stuck.mono stuck le
  | projection id => exact Resolver.Stuck.mono stuck (Nat.sub_le_sub_right le 1)

end Demand

variable {pending : List Demand}

/-- Nothing is remembered for the demands. -/
def Open (pending : List Demand) (state : ResolverState) : Prop :=
  ∀ demand ∈ pending, demand.Unmet state

/-- None of the demands is met without the computation, which has fewer steps than they have. -/
def Needed (core limit : Nat) (pending : List Demand) (state : ResolverState) (extra : Nat)
    (family : Family α) : Prop :=
  ∀ later, state ≤ later → later.Sound core → Open pending later →
    ∀ bound, Stuck family bound later → ∀ demand ∈ pending, demand.Stuck limit (bound + extra) later

namespace Needed

theorem later (needed : Needed core limit pending before extra family) (grown : before ≤ after) :
    Needed core limit pending after extra family :=
  fun later grown' => needed later (le_trans grown grown')

theorem nil (state : ResolverState) (family : Family α) :
    Needed core limit [] state extra family :=
  fun _ _ _ _ _ _ _ listed => (List.not_mem_nil listed).elim

/-- What fails along with the computation is needed as well. -/
theorem along {inner : Family β} (needed : Needed core limit pending state extra family)
    (fails : ∀ later, state ≤ later → later.Sound core → ∀ bound,
      Stuck inner bound later → Stuck family bound later) :
    Needed core limit pending state extra inner :=
  fun later grown sound unmet bound stuck =>
    needed later grown sound unmet bound (fails later grown sound bound stuck)

/-- It is needed with a step less where it is asked for a step later. -/
theorem below {inner : Family β} (needed : Needed core limit pending state extra family)
    (fails : ∀ later, state ≤ later → later.Sound core → ∀ bound,
      Stuck inner bound later → Stuck family (bound + 1) later) :
    Needed core limit pending state (extra + 1) inner := by
  intro later grown sound unmet bound stuck demand listed
  have whole := needed later grown sound unmet (bound + 1) (fails later grown sound bound stuck) demand listed
  rwa [Nat.add_right_comm] at whole

/-- A demand that waits for a part is pending, beside those that wait for it, while the part is done. -/
theorem cons {demand : Demand} {part : Family β} {more : Nat}
    (needed : Needed core limit pending state extra family) (room : 1 ≤ more + extra)
    (waits : ∀ later, state ≤ later → demand.Unmet later → ∀ bound, Stuck part bound later →
      demand.Stuck limit (bound + 1) later ∧ Stuck family (bound + more) later) :
    Needed core limit (demand :: pending) state 1 part := by
  intro later grown sound unmet bound stuck other listed
  obtain ⟨own, unmet⟩ := List.forall_mem_cons.mp unmet
  obtain ⟨here, whole⟩ := waits later grown own bound stuck
  rcases List.mem_cons.mp listed with rfl | listed
  · exact here
  · exact (needed later grown sound unmet (bound + more) whole other listed).mono (by omega)

theorem of_first (needed : Needed core limit pending state extra fun steps chain =>
    first steps chain >>= fun answer => next answer steps chain) :
    Needed core limit pending state extra first :=
  needed.along fun _ _ _ _ stuck steps below chain => (stuck steps below chain).bind _

/-- A shape that waits for itself is never had. -/
theorem shape_stuck (needed : Needed core limit pending state 1
      fun steps chain => flattenWithin limit steps chain id)
    (listed : .shape id ∈ pending) (sound : state.Sound core) (unmet : Open pending state)
    (bound : Nat) : Stuck (fun steps chain => flattenWithin limit steps chain id) bound state := by
  induction bound with
  | zero => exact fun _ below => (Nat.not_lt_zero _ below).elim
  | succ bound ih => exact needed state (le_refl _) sound unmet bound ih _ listed

theorem projection_stuck (needed : Needed core limit pending state 2 fun steps _ => hopWithin limit steps id)
    (listed : .projection id ∈ pending) (sound : state.Sound core) (unmet : Open pending state)
    (bound : Nat) : Stuck (fun steps _ => hopWithin limit steps id) bound state := by
  induction bound with
  | zero => exact fun _ below => (Nat.not_lt_zero _ below).elim
  | succ bound ih => exact needed state (le_refl _) sound unmet bound ih _ listed

end Needed

/-- With however many steps left, the computation fails or gives the answer. -/
def Holds (core : Nat) (family : Family α) (state : ResolverState) (answer : α) : Prop :=
  ∀ later, state ≤ later → later.Sound core → ∀ steps chain,
    Fails (family steps chain) later ∨ family steps chain later = (.ok answer, later)

namespace Holds

theorem of_lasts (lasts : ∀ steps chain, Lasts (family steps chain) state answer) :
    Holds core family state answer :=
  fun later grown _ steps chain => .inr (lasts steps chain later grown)

theorem later (holds : Holds core family before answer) (grown : before ≤ after) :
    Holds core family after answer :=
  fun later grown' => holds later (le_trans grown grown')

theorem bind {result : β} (part : Holds core first state answer)
    (rest : Holds core (next answer) state result) :
    Holds core (fun steps chain => first steps chain >>= fun answer => next answer steps chain)
      state result := by
  intro later grown sound steps chain
  rcases part later grown sound steps chain with fails | ran
  · exact .inl (fails.bind _)
  · rcases rest later grown sound steps chain with ⟨error, last, failed⟩ | ran'
    · exact .inl ⟨error, last, (bind_ok ran).trans failed⟩
    · exact .inr ((bind_ok ran).trans ran')

end Holds

/-- What is left to do is needed once the first part has its answer. -/
theorem Needed.onward (needed : Needed core limit pending state extra fun steps chain =>
      first steps chain >>= fun answer => next answer steps chain)
    (holds : Holds core first middle answer) (grown : state ≤ middle) :
    Needed core limit pending middle extra (next answer) := by
  refine (needed.later grown).along fun later grown' sound bound stuck steps below chain => ?_
  rcases holds later grown' sound steps chain with fails | ran
  · exact fails.bind _
  · obtain ⟨error, last, failed⟩ := stuck steps below chain
    exact ⟨error, last, (bind_ok ran).trans failed⟩

/-- The run meets none of the demands.  If it fails, it fails again, with nothing added. -/
structure Spares (core : Nat) (pending : List Demand) (run again : Run α) (state : ResolverState) :
    Prop where
  resolving : Resolving core state (run state).2
  traced : Traced state (run state).2
  unmet : Open pending (run state).2
  repeats : ∀ error after, run state = (.error error, after) → again after = (.error error, after)

theorem Spares.of_idle (idle : (run state).2 = state) (sound : state.Sound core)
    (unmet : Open pending state) (same : again state = run state) :
    Spares core pending run again state := by
  refine ⟨idle.symm ▸ .refl sound, idle.symm ▸ .refl state, idle.symm ▸ unmet, fun error after ran => ?_⟩
  rw [ran] at idle
  cases idle
  exact same.trans ran

/-- Both parts of a sequence leave them alone.  What is done again is the sequence too, as far as
the first part has come. -/
theorem Spares.sequence {first : Run α} {next : α → Run β} {again : Run β}
    (part : Spares core pending first first state)
    (fails : ∀ error after, state ≤ after → first after = (.error error, after) →
      again after = (.error error, after))
    (rest : ∀ answer middle, first state = (.ok answer, middle) → Resolving core state middle →
      Open pending middle → ∃ onward, Spares core pending (next answer) onward middle ∧
        ∀ later, middle ≤ later → later.Sound core → again later = onward later) :
    Spares core pending (first >>= next) again state := by
  cases ran : first state with
  | mk outcome middle =>
      obtain ⟨resolving, traced, unmet, repeats⟩ := part
      rw [ran] at resolving traced unmet
      cases outcome with
      | error error =>
          have whole : (first >>= next) state = (.error error, middle) := bind_error ran
          refine ⟨by rwa [whole], by rwa [whole], by rwa [whole], fun other after failed => ?_⟩
          cases whole.symm.trans failed
          exact fails error middle resolving.grown (repeats error middle ran)
      | ok answer =>
          have whole : (first >>= next) state = next answer middle := bind_ok ran
          obtain ⟨onward, rest, same⟩ := rest answer middle ran resolving unmet
          refine ⟨whole ▸ resolving.trans rest.resolving,
            whole ▸ traced.trans resolving.grown rest.traced rest.resolving.grown,
            whole ▸ rest.unmet, fun error after failed => ?_⟩
          rw [whole] at failed
          have grown := rest.resolving
          rw [failed] at grown
          exact (same after grown.grown grown.sound).trans (rest.repeats error after failed)

/-- A run that works out a demand does its first part with the demand pending.  As long as nothing is
remembered for it, the failure of the part is that of the run. -/
theorem Spares.of_pending {demand : Demand} {part : Run β}
    (spares : Spares core (demand :: pending) part part state) (own : demand.Unmet state)
    (fails : ∀ error before after, state ≤ before → demand.Unmet before →
      part before = (.error error, after) → run before = (.error error, after))
    (ends : ∀ answer middle, part state = (.ok answer, middle) → Resolving core state middle →
      Traced state middle → demand.Unmet middle → Open pending middle → Spares core pending run run state) :
    Spares core pending run run state := by
  obtain ⟨resolving, traced, unmet, repeats⟩ := spares
  cases ran : part state with
  | mk outcome middle =>
      rw [ran] at resolving traced unmet
      obtain ⟨unknown, others⟩ := List.forall_mem_cons.mp unmet
      cases outcome with
      | error error =>
          have whole := fails error state middle (le_refl _) own ran
          refine ⟨by rwa [whole], by rwa [whole], by rwa [whole], fun other last failed => ?_⟩
          cases whole.symm.trans failed
          exact fails error middle middle resolving.grown unknown (repeats error middle ran)
      | ok answer => exact ends answer middle ran resolving traced unknown others

theorem Spares.bind {first : Run α} {next : α → Run β}
    (part : Spares core pending first first state)
    (rest : ∀ answer middle, first state = (.ok answer, middle) → Resolving core state middle →
      Open pending middle → Settles core first middle answer ∧
        Spares core pending (next answer) (next answer) middle) :
    Spares core pending (first >>= next) (first >>= next) state := by
  refine part.sequence (fun error after _ failed => bind_error failed) ?_
  intro answer middle ran resolving unmet
  obtain ⟨settles, rest⟩ := rest answer middle ran resolving unmet
  exact ⟨next answer, rest, fun later grown sound => bind_ok (settles later grown sound)⟩

/-- With the given number of steps the computation meets no demand that needs it, and its answer is
settled for every number of steps. -/
structure Careful (core limit steps : Nat) (chain : List SchemaId) (extra : Nat) (family : Family α)
    (state : ResolverState) : Prop where
  spares : ∀ pending, Open pending state → Needed core limit pending state extra family →
    Spares core pending (family steps chain) (family steps chain) state
  answers : ∀ answer after, family steps chain state = (.ok answer, after) →
    Settles core (family steps chain) after answer ∧ Holds core family after answer

namespace Careful

theorem resolving (careful : Careful core limit steps chain extra family state)
    (ran : family steps chain state = (.ok answer, after)) : Resolving core state after := by
  have spares := careful.spares [] (fun _ listed => (List.not_mem_nil listed).elim) (.nil state family)
  simpa only [ran] using spares.resolving

/-- A run that changes nothing and does not look at the steps. -/
theorem of_idle (sound : state.Sound core) (idle : (run state).2 = state)
    (lasts : ∀ answer, run state = (.ok answer, state) → Lasts run state answer) :
    Careful core limit steps chain extra (fun _ _ => run) state := by
  refine ⟨fun pending unmet _ => .of_idle idle sound unmet rfl, fun answer after ran => ?_⟩
  rw [ran] at idle
  cases idle
  exact ⟨.of_lasts (lasts answer ran), .of_lasts fun _ _ => lasts answer ran⟩

theorem pure (sound : state.Sound core) (answer : α) :
    Careful core limit steps chain extra (fun _ _ => (pure answer : Run α)) state :=
  .of_idle sound rfl fun other ran => by
    cases ran
    exact .pure

theorem fail (sound : state.Sound core) (error : SchemaError) :
    Careful core limit steps chain extra (fun _ _ => (Run.fail error : Run α)) state :=
  .of_idle sound rfl fun other ran => by cases ran

theorem node (sound : state.Sound core) (id : SchemaId) :
    Careful core limit steps chain extra (fun _ _ => Run.node id) state := by
  refine .of_idle sound ?_ fun node ran => .node (of_node_ok ran).1
  cases found : state.arena.get? id with
  | some node => rw [node_apply found]
  | none => rw [node_missing found]

theorem bind (part : Careful core limit steps chain extra first state)
    (rest : ∀ answer middle, first steps chain state = (.ok answer, middle) →
      Resolving core state middle → Careful core limit steps chain extra (next answer) middle) :
    Careful core limit steps chain extra
      (fun steps chain => first steps chain >>= fun answer => next answer steps chain) state := by
  refine ⟨fun pending unmet needed => ?_, fun result after ran => ?_⟩
  · refine (part.spares pending unmet needed.of_first).bind fun answer middle ran resolving unmet' => ?_
    obtain ⟨settles, holds⟩ := part.answers answer middle ran
    exact ⟨settles, (rest answer middle ran resolving).spares pending unmet'
      (needed.onward holds resolving.grown)⟩
  · obtain ⟨answer, middle, begun, continued⟩ := of_bind_ok ran
    obtain ⟨settles, holds⟩ := part.answers answer middle begun
    have careful := rest answer middle begun (part.resolving begun)
    obtain ⟨settles', holds'⟩ := careful.answers result after continued
    have grown := (careful.resolving continued).grown
    refine ⟨fun later grown' sound => ?_, (holds.later grown).bind holds'⟩
    exact (bind_ok (settles later (le_trans grown grown') sound)).trans (settles' later grown' sound)

/-- The nodes whose shapes are being computed may be given in another way. -/
theorem relabel (change : List SchemaId → List SchemaId)
    (careful : Careful core limit steps (change chain) extra family state) :
    Careful core limit steps chain extra (fun steps chain => family steps (change chain)) state := by
  refine ⟨fun pending unmet needed => careful.spares pending unmet ?_, fun answer after ran => ?_⟩
  · exact fun later grown sound unmet' bound stuck =>
      needed later grown sound unmet' bound fun steps below chain => stuck steps below (change chain)
  · obtain ⟨settles, holds⟩ := careful.answers answer after ran
    exact ⟨settles, fun later grown sound steps chain => holds later grown sound steps (change chain)⟩

end Careful

end Conform.Resolver
