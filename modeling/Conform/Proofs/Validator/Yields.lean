import Conform.Proofs.Validator.Stable

/-! Checks that add nothing.  In a state where everything that a check needs is
known it leaves the state as it is, and so does each of its parts.  What the
check found can be read off from what its parts found. -/

namespace Conform

/-- A union or intersection. -/
def Node.Combines : Node → Prop
  | .union _ | .intersection _ => True
  | _ => False

namespace Validator

open Run Resolver

variable {core steps limit : Nat} {α β : Type} {state after : ResolverState} {options : Options}
  {value : Value} {object : Object} {id target : SchemaId} {ids : List SchemaId} {outcome : Outcome}
  {checkPart : Value → SchemaId → Run Outcome} {checkMember : SchemaId → Run Outcome}
  {next : Run Outcome} {part : Value} {key : String} {foreign : ForeignFields} {tolerated : Option ForeignFields} {shape : Shape}

theorem checkAny_yields {failures : List Failure} (members : ∀ id, Stable core (checkMember id))
    (sound : state.Sound core) (yields : Yields (checkAny checkMember failures ids) state outcome) :
    (outcome = .success ∧ ∃ id ∈ ids, Yields (checkMember id) state .success) ∨
      (outcome ≠ .success ∧ ∀ id ∈ ids, ∃ failure, Yields (checkMember id) state (.failure failure)) := by
  induction ids generalizing failures with
  | nil =>
      cases yields
      exact .inr ⟨nofun, fun _ listed => nomatch listed⟩
  | cons id rest ih =>
      obtain ⟨found, first, next⟩ := yields.split (members id) (fun found => by
        cases found with
        | success => exact .pure _
        | failure failure => exact checkAny_stable members _ rest) sound
      cases found with
      | success =>
          cases next
          exact .inl ⟨rfl, id, List.mem_cons_self .., first⟩
      | failure failure =>
          rcases ih next with ⟨accepted, member, listed, here⟩ | ⟨rejected, all⟩
          · exact .inl ⟨accepted, member, List.mem_cons_of_mem _ listed, here⟩
          · refine .inr ⟨rejected, fun member listed => ?_⟩
            rcases List.mem_cons.mp listed with rfl | listed
            · exact ⟨failure, first⟩
            · exact all member listed

theorem checkAll_yields {position : Nat} (members : ∀ id, Stable core (checkMember id))
    (sound : state.Sound core) (yields : Yields (checkAll checkMember position ids) state outcome) :
    (outcome = .success ∧ ∀ id ∈ ids, Yields (checkMember id) state .success) ∨
      (outcome ≠ .success ∧ ∃ id ∈ ids, ∃ failure, Yields (checkMember id) state (.failure failure)) := by
  induction ids generalizing position with
  | nil =>
      cases yields
      exact .inl ⟨rfl, fun _ listed => nomatch listed⟩
  | cons id rest ih =>
      obtain ⟨found, first, next⟩ := yields.split (members id) (fun found => by
        cases found with
        | success => exact checkAll_stable members _ rest
        | failure failure => exact .pure _) sound
      cases found with
      | failure failure =>
          cases next
          exact .inr ⟨nofun, id, List.mem_cons_self .., failure, first⟩
      | success =>
          rcases ih next with ⟨accepted, all⟩ | ⟨rejected, member, listed, here⟩
          · refine .inl ⟨accepted, fun member listed => ?_⟩
            rcases List.mem_cons.mp listed with rfl | listed
            · exact first
            · exact all member listed
          · exact .inr ⟨rejected, member, List.mem_cons_of_mem _ listed, here⟩

section

variable (parts : ∀ part id, Stable core (checkPart part id)) (sound : state.Sound core)

include parts sound

theorem checkThen_splits {segment : Segment} {part : Value} (rest : Stable core next)
    (yields : Yields (checkThen checkPart segment part id next) state outcome) :
    (∃ cause, Yields (checkPart part id) state (.failure cause) ∧
        outcome = .failure (.within segment cause)) ∨
      Yields (checkPart part id) state .success ∧ Yields next state outcome := by
  obtain ⟨found, first, last⟩ := yields.split (parts part id) (fun found => by
    cases found with
    | success => exact rest
    | failure cause => exact .pure _) sound
  cases found with
  | success => exact .inr ⟨first, last⟩
  | failure cause =>
      cases last
      exact .inl ⟨cause, first, rfl⟩

theorem checkThen_yields {segment : Segment} {part : Value} (rest : Stable core next)
    (yields : Yields (checkThen checkPart segment part id next) state outcome) :
    (outcome ≠ .success ∧ ∃ failure, Yields (checkPart part id) state (.failure failure)) ∨
      Yields (checkPart part id) state .success ∧ Yields next state outcome :=
  (checkThen_splits parts sound rest yields).imp_left fun ⟨cause, failed, same⟩ =>
    ⟨by rw [same]; nofun, cause, failed⟩

theorem checkEntries_accepted {entries : List (String × Value)} {isDeclared : String → Bool}
    (listed : (key, part) ∈ entries) (undeclared : isDeclared key = false)
    (accepted : Yields (checkEntries checkPart isDeclared id entries) state .success) :
    Yields (checkPart part id) state .success := by
  induction entries with
  | nil => cases listed
  | cons entry rest ih =>
      simp only [checkEntries] at accepted
      by_cases declared : isDeclared entry.1 = true
      · simp only [declared, if_true] at accepted
        rcases List.mem_cons.mp listed with rfl | listed
        · cases undeclared.symm.trans declared
        · exact ih listed accepted
      · simp only [declared] at accepted
        rcases checkThen_yields parts sound (checkEntries_stable parts isDeclared id rest) accepted with
          ⟨rejected, -⟩ | ⟨here, onward⟩
        · exact (rejected rfl).elim
        · rcases List.mem_cons.mp listed with rfl | listed
          · exact here
          · exact ih listed onward

end

/-- The value against a shape. -/
def checkFlat (options : Options) (checkPart : Value → SchemaId → Run Outcome) (value : Value)
    (tolerated : Option ForeignFields) (shape : Shape) : Run Outcome :=
  match value with
  | .object object => checkShape checkPart options object shape tolerated
  | _ => return wrongType "Object" value

theorem checkFlat_stable (parts : ∀ part id, Stable core (checkPart part id)) :
    Stable core (checkFlat options checkPart value tolerated shape) := by
  cases value with
  | object object => exact checkShape_stable parts shape tolerated
  | _ => exact .pure _

/-- What a check comes down to at a concrete node: `members` checks the members of a
union or intersection, `union` the union that stands for a combinator, `flat` the
value against a shape, and `own` follows the rule of any other node. -/
def Examines (state : ResolverState) (members union : SchemaId → Run Outcome)
    (flat : Shape → Run Outcome) (own : Run Outcome) (target : SchemaId) (outcome : Outcome) :
    Node → Prop
  | .union listed => Yields (checkAny members [] listed) state outcome
  | .intersection listed => Yields (checkAll members 0 listed) state outcome
  | .interface _ _ _ | .mapped _ _ =>
      (∃ id, state.distributions.find? target = some id ∧ Yields (union id) state outcome) ∨
        ∃ shape, Declares state target shape ∧ Yields (flat shape) state outcome
  | _ => Yields own state outcome

namespace Examines

variable {members union : SchemaId → Run Outcome} {flat : Shape → Run Outcome} {own : Run Outcome}
  {node : Node} (examines : Examines state members union flat own target outcome node)
  (found : state.arena.get? target = some node)

include examines found

theorem decided : Decided state target := by
  refine ⟨node, found, fun like => ?_⟩
  cases node with
  | interface _ _ _ | mapped _ _ =>
      rcases examines with ⟨id, known, -⟩ | ⟨shape, declares, -⟩
      · exact .inl ⟨id, known⟩
      · exact .inr ⟨shape, declares⟩
  | _ => cases like

theorem of_distribution (sound : state.Sound core) (known : state.distributions.find? target = some id) :
    Yields (union id) state outcome := by
  obtain ⟨_, _, node'⟩ := sound.mapped_of_distribution known
  cases found.symm.trans node'
  rcases examines with ⟨other, known', yields⟩ | ⟨shape, declares, -⟩
  · cases known.symm.trans known'
    exact yields
  · exact (silent_of_distribution sound known shape declares).elim

theorem of_declares (sound : state.Sound core) (declares : Declares state target shape) :
    Yields (flat shape) state outcome := by
  obtain ⟨node', found', like⟩ := declares.interfaceLike
  cases found.symm.trans found'
  cases node with
  | interface _ _ _ | mapped _ _ =>
      rcases examines with ⟨id, known, -⟩ | ⟨other, declares', yields⟩
      · exact (silent_of_distribution sound known shape declares).elim
      · cases declares.shape.symm.trans declares'.shape
        exact yields
  | _ => cases like

end Examines

section

variable (parts : ∀ part id, Stable core (checkPart part id)) (sound : state.Sound core)

include parts sound

theorem checkInterfaceLike_yields (unions : ∀ id, Stable core (checkMember id)) {node : Node}
    (found : state.arena.get? id = some node) (like : node.isInterfaceLike = true)
    (yields : Yields (checkInterfaceLike options checkPart value tolerated checkMember id) state outcome) :
    (∃ union, state.distributions.find? id = some union ∧ Yields (checkMember union) state outcome) ∨
      ∃ shape, Declares state id shape ∧
        Yields (checkFlat options checkPart value tolerated shape) state outcome := by
  obtain ⟨answer, distributes, rest⟩ := yields.split (distributeWithin_stable _ _ id) (fun answer => by
    cases answer with
    | some union => exact unions union
    | none => exact .bind (flatten_stable _ id) fun _ => checkFlat_stable parts) sound
  have known := (distributeWithin_meets _ _ sound).answers answer state distributes
  cases answer with
  | some union => exact .inl ⟨union, known, rest⟩
  | none =>
      obtain ⟨shape, flattens, rest⟩ := Yields.split (flatten_stable _ id)
        (fun _ => checkFlat_stable parts) sound rest
      have shaped := ((flattenWithin_meets _ _ [] id state sound).answers shape state flattens).1
      exact .inr ⟨shape, ⟨known node found like, shaped⟩, rest⟩

theorem checkMemberWithin_yields
    (yields : Yields (checkMemberWithin options checkPart value steps foreign id) state outcome) :
    ∃ fewer target node, steps = fewer + 1 ∧ Resolves state id target ∧
      state.arena.get? target = some node ∧
      Examines state (checkMemberWithin options checkPart value fewer foreign)
        (checkMemberWithin options checkPart value fewer foreign)
        (checkFlat options checkPart value (some foreign))
        (checkWithin options checkPart value fewer target) target outcome node := by
  cases steps with
  | zero => cases yields
  | succ fewer =>
      obtain ⟨checks, members⟩ := within_stable parts fewer
      obtain ⟨target, resolves, rest⟩ := Yields.split (resolve_stable _ id) (fun target =>
        .bind (.node target) fun node => by
          cases node with
          | union listed => exact checkAny_stable (members foreign) [] listed
          | intersection listed => exact checkAll_stable (members foreign) 0 listed
          | interface _ _ _ | mapped _ _ =>
              exact checkInterfaceLike_stable parts _ (members foreign) target
          | _ => exact checks target) sound yields
      obtain ⟨node, _, reads, rest⟩ := of_bind_ok rest
      obtain ⟨found, rfl⟩ := of_node_ok reads
      refine ⟨fewer, target, node, rfl, Yields.resolves sound resolves, found, ?_⟩
      cases node with
      | interface _ _ _ | mapped _ _ =>
          exact checkInterfaceLike_yields parts sound (members foreign) found rfl rest
      | _ => exact rest

theorem checkWithin_yields
    (yields : Yields (checkWithin options checkPart value steps id) state outcome) :
    ∃ fewer node, steps = fewer + 1 ∧ state.arena.get? id = some node ∧
      ((¬ node.IsConcrete ∧ ∃ target, Resolves state id target ∧
          Yields (checkWithin options checkPart value fewer target) state outcome) ∨
        (node.IsConcrete ∧ ∃ fields, (node.Combines → state.foreign.find? id = some fields) ∧
          Examines state (checkMemberWithin options checkPart value fewer fields)
            (checkWithin options checkPart value fewer) (checkFlat options checkPart value none)
            (checkWithin options checkPart value (fewer + 1) id) id outcome node)) := by
  cases steps with
  | zero => cases yields
  | succ fewer =>
      obtain ⟨checks, members⟩ := within_stable parts fewer
      obtain ⟨node, _, reads, rest⟩ := of_bind_ok yields
      obtain ⟨found, rfl⟩ := of_node_ok reads
      refine ⟨fewer, node, rfl, found, ?_⟩
      cases node with
      | reference _ | indexedAccess _ _ =>
          obtain ⟨target, resolves, rest⟩ := Yields.split (resolve_stable _ id) checks sound rest
          exact .inl ⟨nofun, target, Yields.resolves sound resolves, rest⟩
      | union listed =>
          obtain ⟨fields, known, rest⟩ := Yields.split (foreignFields_stable _ id)
            (fun fields => checkAny_stable (members fields) [] listed) sound rest
          exact .inr ⟨trivial, fields, fun _ => (foreignFields_meets _ sound).answers _ _ known, rest⟩
      | intersection listed =>
          obtain ⟨fields, known, rest⟩ := Yields.split (foreignFields_stable _ id)
            (fun fields => checkAll_stable (members fields) 0 listed) sound rest
          exact .inr ⟨trivial, fields, fun _ => (foreignFields_meets _ sound).answers _ _ known, rest⟩
      | interface _ _ _ | mapped _ _ =>
          exact .inr ⟨trivial, .empty, nofun, checkInterfaceLike_yields parts sound checks found rfl rest⟩
      | _ => exact .inr ⟨trivial, .empty, nofun, yields⟩

/-- A check comes down to the examination of the concrete node. -/
theorem checkWithin_examines
    (yields : Yields (checkWithin options checkPart value steps id) state outcome) :
    ∃ fewer target node fields, fewer < steps ∧ Resolves state id target ∧
      state.arena.get? target = some node ∧
      (node.Combines → state.foreign.find? target = some fields) ∧
      Examines state (checkMemberWithin options checkPart value fewer fields)
        (checkWithin options checkPart value fewer) (checkFlat options checkPart value none)
        (checkWithin options checkPart value (fewer + 1) target) target outcome node := by
  obtain ⟨fewer, node, rfl, found, ⟨-, target, resolves, rest⟩ | ⟨concrete, fields, known, here⟩⟩ :=
    checkWithin_yields parts sound yields
  · obtain ⟨fewest, node, rfl, found, ⟨follows, -⟩ | ⟨-, fields, known, here⟩⟩ :=
      checkWithin_yields parts sound rest
    · exact (follows (resolves.target_concrete sound found)).elim
    · exact ⟨fewest, target, node, fields, by omega, resolves, found, known, here⟩
  · exact ⟨fewer, id, node, fields, Nat.lt_succ_self _, resolves_concrete found concrete, found, known,
      here⟩

/-- What a schema resolves to is checked like the schema. -/
theorem checkWithin_resolved (resolves : Resolves state id target)
    (yields : Yields (checkWithin options checkPart value steps id) state outcome) :
    ∃ fewer, Yields (checkWithin options checkPart value fewer target) state outcome := by
  obtain ⟨fewer, node, rfl, found, ⟨-, other, resolves', onward⟩ | ⟨concrete, -⟩⟩ :=
    checkWithin_yields parts sound yields
  · cases resolves.unique resolves'
    exact ⟨fewer, onward⟩
  · cases resolves.concrete found concrete
    exact ⟨_, yields⟩

theorem checkMemberWithin_union {members : List SchemaId} (node : state.arena.get? id = some (.union members))
    (yields : Yields (checkMemberWithin options checkPart value steps foreign id) state outcome) :
    ∃ fewer, steps = fewer + 1 ∧
      Yields (checkAny (checkMemberWithin options checkPart value fewer foreign) [] members) state outcome := by
  obtain ⟨fewer, target, _, same, resolves, found, here⟩ := checkMemberWithin_yields parts sound yields
  cases resolves.concrete node trivial
  cases node.symm.trans found
  exact ⟨fewer, same, here⟩

/-- The members of a union are checked with the fields that are known for it. -/
theorem checkWithin_union {members : List SchemaId} (node : state.arena.get? id = some (.union members))
    (yields : Yields (checkWithin options checkPart value steps id) state outcome) :
    ∃ fewer fields, state.foreign.find? id = some fields ∧
      Yields (checkAny (checkMemberWithin options checkPart value fewer fields) [] members) state outcome := by
  obtain ⟨fewer, target, _, fields, -, resolves, found, known, here⟩ :=
    checkWithin_examines parts sound yields
  cases resolves.concrete node trivial
  cases node.symm.trans found
  exact ⟨fewer, fields, known trivial, here⟩

end

end Validator

end Conform
