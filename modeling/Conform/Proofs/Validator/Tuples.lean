import Conform.Proofs.Validator.Levels
import Conform.Proofs.Validator.Together

/-! Tuples.  Every place has to hold what its type accepts, or nothing from the first place on
that may be left out.  The first place that does neither is reported, so the outcome can be
told from what the elements come to on their own. -/

namespace Conform.Validator

open Run Resolver

variable {core : Nat} {registry : Registry} {options : Options} {validator judge : Validator}
  {state : ResolverState} {id element : SchemaId} {elements : List SchemaId} {items : List Value}
  {item : Value} {required position place : Nat} {outcome : Outcome} {cause : Failure}
  {checkPart : Value → SchemaId → Run Outcome}
  {answer other : Value → SchemaId → Except SchemaError Outcome}

/-- A place beyond the end of a list, or one that has `undefined`. -/
def Vacant (items : List Value) (place : Nat) : Prop :=
  items[place]?.getD .undefined = .undefined

/-- A place has what a tuple with so many required places asks for. -/
inductive FillsPlace (answer : Value → SchemaId → Except SchemaError Outcome) (required : Nat)
    (items : List Value) (place : Nat) (element : SchemaId) : Prop
  | accepted {item : Value} (here : items[place]? = some item) (present : item ≠ .undefined)
      (accepted : answer item element = .ok .success)
  | omitted (vacant : Vacant items place) (late : required ≤ place)

/-- What is wrong with a place. -/
inductive FailsPlace (answer : Value → SchemaId → Except SchemaError Outcome) (required : Nat)
    (items : List Value) (place : Nat) (element : SchemaId) : Failure → Prop
  | missing (vacant : Vacant items place) (early : place < required) :
      FailsPlace answer required items place element .missingMember
  | rejected {item : Value} {cause : Failure} (here : items[place]? = some item)
      (present : item ≠ .undefined) (rejected : answer item element = .ok (.failure cause)) :
      FailsPlace answer required items place element cause

theorem not_vacant (here : items[place]? = some item) (present : item ≠ .undefined) :
    ¬ Vacant items place := by
  simpa [Vacant, here] using present

theorem FailsPlace.not_fills (fails : FailsPlace answer required items place element cause) :
    ¬ FillsPlace answer required items place element := by
  intro fills
  cases fails with
  | missing vacant early =>
      cases fills with
      | accepted here present _ => exact not_vacant here present vacant
      | omitted _ late => omega
  | rejected here present rejected =>
      cases fills with
      | accepted here' _ accepted =>
          cases here.symm.trans here'
          cases rejected.symm.trans accepted
      | omitted vacant _ => exact not_vacant here present vacant

/-- The places after the first are those of the tail, where one less is required. -/
theorem FillsPlace.succ (fills : FillsPlace answer (required - 1) items.tail place element) :
    FillsPlace answer required items (place + 1) element := by
  cases fills with
  | accepted here present accepted => exact .accepted (by simpa using here) present accepted
  | omitted vacant late => exact .omitted (by simpa [Vacant] using vacant) (by omega)

theorem FailsPlace.succ (fails : FailsPlace answer (required - 1) items.tail place element cause) :
    FailsPlace answer required items (place + 1) element cause := by
  cases fails with
  | missing vacant early => exact .missing (by simpa [Vacant] using vacant) (by omega)
  | rejected here present rejected => exact .rejected (by simpa using here) present rejected

/-- What a scan of the places comes to: all of them are filled, or it stops at the first that
is not. -/
inductive Scans (answer : Value → SchemaId → Except SchemaError Outcome) (required position : Nat)
    (elements : List SchemaId) (items : List Value) : Outcome → Prop
  | filled (each : ∀ place element, elements[place]? = some element →
      FillsPlace answer required items place element) :
      Scans answer required position elements items .success
  | stopped (place : Nat) {element : SchemaId} {cause : Failure} (here : elements[place]? = some element)
      (earlier : ∀ before < place, ∀ type, elements[before]? = some type →
        FillsPlace answer required items before type)
      (fails : FailsPlace answer required items place element cause) :
      Scans answer required position elements items (.failure (.within (.index (position + place)) cause))

namespace Scans

theorem first (fails : FailsPlace answer required items 0 element cause) :
    Scans answer required position (element :: elements) items
      (.failure (.within (.index position) cause)) :=
  .stopped 0 rfl (fun _ below => (Nat.not_lt_zero _ below).elim) fails

theorem next (fills : FillsPlace answer required items 0 element)
    (rest : Scans answer (required - 1) (position + 1) elements items.tail outcome) :
    Scans answer required position (element :: elements) items outcome := by
  cases rest with
  | filled each =>
      refine .filled fun place type listed => ?_
      cases place with
      | zero =>
          cases listed
          exact fills
      | succ place => exact (each place type listed).succ
  | stopped place here earlier fails =>
      rw [Nat.add_assoc, Nat.add_comm 1]
      refine .stopped (place + 1) here (fun before below type listed => ?_) fails.succ
      cases before with
      | zero =>
          cases listed
          exact fills
      | succ before => exact (earlier before (by omega) type listed).succ

/-- A scan comes to the same where every item that is there has the same answer. -/
theorem imp (scans : Scans answer required position elements items outcome)
    (same : ∀ (place : Nat) item element own, items[place]? = some item →
      elements[place]? = some element → answer item element = .ok own → other item element = .ok own) :
    Scans other required position elements items outcome := by
  have fills {place : Nat} {element : SchemaId} (listed : elements[place]? = some element)
      (fills : FillsPlace answer required items place element) :
      FillsPlace other required items place element := by
    cases fills with
    | accepted here present accepted =>
        exact .accepted here present (same place _ _ _ here listed accepted)
    | omitted vacant late => exact .omitted vacant late
  cases scans with
  | filled each => exact .filled fun place element listed => fills listed (each place element listed)
  | stopped place here earlier fails =>
      refine .stopped place here (fun before below type listed => fills listed (earlier before below type listed)) ?_
      cases fails with
      | missing vacant early => exact .missing vacant early
      | rejected own present rejected => exact .rejected own present (same _ _ _ _ own here rejected)

end Scans

theorem checkPlaces_vacant (vacant : Vacant items 0) :
    checkPlaces checkPart required position (element :: elements) items =
      if position < required then return .failure (.within (.index position) .missingMember)
      else checkPlaces checkPart required (position + 1) elements items.tail := by
  cases items with
  | nil => rfl
  | cons item rest =>
      cases (show item = .undefined from vacant)
      rfl

theorem checkPlaces_present {rest : List Value} (present : item ≠ .undefined) :
    checkPlaces checkPart required position (element :: elements) (item :: rest) =
      checkThen checkPart (.index position) item element
        (checkPlaces checkPart required (position + 1) elements rest) := by
  cases item with
  | undefined => exact (present rfl).elim
  | _ => rfl

theorem vacant_or_present (items : List Value) :
    Vacant items 0 ∨ ∃ item rest, items = item :: rest ∧ item ≠ .undefined := by
  cases items with
  | nil => exact .inl rfl
  | cons item rest =>
      by_cases absent : item = .undefined
      · exact .inl absent
      · exact .inr ⟨item, rest, rfl, absent⟩

section

variable (parts : ∀ part id, Stable core (checkPart part id)) (sound : state.Sound core)

include parts sound

/-- The check of the places is a scan.  The places are counted from the current one on, and so
is what is required of them. -/
theorem checkPlaces_scans
    (yields : Yields (checkPlaces checkPart required position elements items) state outcome) :
    Scans (fun item element => (checkPart item element state).1) (required - position) position
      elements items outcome := by
  induction elements generalizing position items with
  | nil =>
      cases yields
      exact .filled nofun
  | cons element elements ih =>
      have onward {rest : List Value}
          (yields : Yields (checkPlaces checkPart required (position + 1) elements rest) state outcome) :
          Scans _ (required - position - 1) (position + 1) elements rest outcome := ih yields
      rcases vacant_or_present items with vacant | ⟨item, rest, rfl, present⟩
      · rw [checkPlaces_vacant vacant] at yields
        split at yields
        · next early =>
            cases yields
            exact .first (.missing vacant (by omega))
        · next late => exact .next (.omitted vacant (by omega)) (onward yields)
      · rw [checkPlaces_present present] at yields
        rcases checkThen_splits parts sound (checkPlaces_stable parts _ _ _ _) yields with
          ⟨cause, rejected, rfl⟩ | ⟨accepted, yields⟩
        · exact .first (.rejected rfl present (congrArg Prod.fst rejected))
        · exact .next (.accepted rfl present (congrArg Prod.fst accepted)) (onward yields)

theorem checkTuple_scans {optionalStart : Option Nat}
    (yields : Yields (checkTuple checkPart elements optionalStart (.array items)) state outcome) :
    elements.length < items.length ∧
        outcome = .failure (.tupleOverlength items.length elements.length) ∨
      items.length ≤ elements.length ∧ Scans (fun item element => (checkPart item element state).1)
        (optionalStart.getD elements.length) 0 elements items outcome := by
  simp only [checkTuple] at yields
  split at yields
  · next longer =>
      cases yields
      exact .inl ⟨longer, rfl⟩
  · next shorter => exact .inr ⟨Nat.le_of_not_lt shorter, checkPlaces_scans parts sound yields⟩

end

/-- At a tuple the elements are checked like values on their own. -/
theorem check_tuple_scans {optionalStart : Option Nat} (sound : state.Sound core)
    (node : state.arena.get? id = some (.tuple elements optionalStart))
    (yields : Yields (check options (.array items) id) state outcome) :
    elements.length < items.length ∧
        outcome = .failure (.tupleOverlength items.length elements.length) ∨
      items.length ≤ elements.length ∧ Scans (fun item element => (check options item element state).1)
        (optionalStart.getD elements.length) 0 elements items outcome := by
  unfold check checkLevels at yields
  cases limit : options.maxDepth with
  | zero =>
      rw [limit] at yields
      cases yields
  | succ steps =>
      rw [limit] at yields
      have places := (bind_ok (node_apply node)).symm.trans yields
      have parts (part : Value) (id : SchemaId) : Stable core
          (checkLevels options (Value.array items).height part id) := checkLevels_stable _ part id
      refine (checkTuple_scans parts sound places).imp_right (And.imp_right fun scans => ?_)
      refine scans.imp fun place item element own here _ answered => ?_
      rw [← answered, checkLevels_eq_check (Value.height_part (List.mem_of_getElem? here))]

/-- What the outcome for a list at a tuple has to be, given what the elements come to on their
own. -/
structure TupleOutcome (answer : Value → SchemaId → Except SchemaError Outcome)
    (elements : List SchemaId) (optionalStart : Option Nat) (items : List Value) (outcome : Outcome) :
    Prop where
  accepted : outcome = .success ↔ items.length ≤ elements.length ∧
    ∀ place element, elements[place]? = some element →
      FillsPlace answer (optionalStart.getD elements.length) items place element
  overlong : elements.length < items.length →
    outcome = .failure (.tupleOverlength items.length elements.length)
  /-- The first place that is not filled is reported. -/
  stopped : items.length ≤ elements.length → outcome ≠ .success →
    ∃ place element cause, elements[place]? = some element ∧
      (∀ before < place, ∀ type, elements[before]? = some type →
        FillsPlace answer (optionalStart.getD elements.length) items before type) ∧
      ¬ FillsPlace answer (optionalStart.getD elements.length) items place element ∧
      FailsPlace answer (optionalStart.getD elements.length) items place element cause ∧
      outcome = .failure (.within (.index place) cause)

theorem TupleOutcome.of_longer {optionalStart : Option Nat} (longer : elements.length < items.length) :
    TupleOutcome answer elements optionalStart items
      (.failure (.tupleOverlength items.length elements.length)) where
  accepted := iff_of_false nofun fun ⟨shorter, _⟩ => Nat.not_le_of_lt longer shorter
  overlong _ := rfl
  stopped shorter := (Nat.not_le_of_lt longer shorter).elim

theorem TupleOutcome.of_scans {optionalStart : Option Nat} (shorter : items.length ≤ elements.length)
    (scans : Scans answer (optionalStart.getD elements.length) 0 elements items outcome) :
    TupleOutcome answer elements optionalStart items outcome := by
  have overlong (longer : elements.length < items.length) :
      outcome = .failure (.tupleOverlength items.length elements.length) :=
    (Nat.not_le_of_lt longer shorter).elim
  cases scans with
  | filled each => exact ⟨iff_of_true rfl ⟨shorter, each⟩, overlong, fun _ failed => (failed rfl).elim⟩
  | @stopped place element cause here earlier fails =>
      refine ⟨iff_of_false nofun ?_, overlong, fun _ _ => ?_⟩
      · exact fun ⟨_, each⟩ => fails.not_fills (each place element here)
      · exact ⟨place, element, cause, here, earlier, fails.not_fills, fails, by rw [Nat.zero_add]⟩

/-- The outcome is told in any state where the check of the list adds nothing. -/
theorem TupleOutcome.of_yields {optionalStart : Option Nat} (sound : state.Sound core)
    (node : state.arena.get? id = some (.tuple elements optionalStart))
    (yields : Yields (check options (.array items) id) state outcome)
    (same : ∀ (place : Nat) item element own, items[place]? = some item → elements[place]? = some element →
      (check options item element state).1 = .ok own → answer item element = .ok own) :
    TupleOutcome answer elements optionalStart items outcome := by
  rcases check_tuple_scans sound node yields with ⟨longer, rfl⟩ | ⟨shorter, scans⟩
  · exact .of_longer longer
  · exact .of_scans shorter (scans.imp same)

/-- A tuple accepts a list if it is not too long and all places are filled; otherwise the first
place that is not is reported, with what is wrong there.  Any validator that the call has led to
can tell about the elements.  One that has not been through the call can tell as well, as long as
no element takes it to the recursion limit: the call may stay within the limit there by what it
has learned from earlier elements. -/
theorem tuple_reports_first_unfilled_place {optionalStart : Option Nat}
    (reachable : Reachable registry options validator)
    (node : validator.state.arena.get? id = some (.tuple elements optionalStart))
    (answered : (validator.validateById (.array items) id).1 = .ok outcome)
    (tells : (validator.validateById (.array items) id).2.Leads judge ∨
      validator.Leads judge ∧ ∀ (place : Nat) item element, items[place]? = some item →
        elements[place]? = some element → ¬ IsLimited (judge.validateById item element).1) :
    TupleOutcome (fun item element => (judge.validateById item element).1) elements optionalStart
      items outcome := by
  obtain ⟨leads, state, replays⟩ := reachable.replays answered tells
  have advances := leads.advances reachable.sound
  have found := ResolverState.get?_later node (le_trans advances.grown replays.grown)
  refine .of_yields replays.sound found replays.yields fun place item element own here listed answer => ?_
  have issued := children_issued reachable.sound node element (List.mem_of_getElem? listed)
  rw [← answer]
  exact replays.answer (reachable.leads leads) (advances.issued issued)
    fun unlimited => unlimited place item element here listed

/-- A string, and then a flag and another string that may be left out. -/
def flagged : Validator :=
  (Validator.ofRegistry .empty { maxDepth := 4 }).allocAll
    [.string, .boolean, .tuple [⟨2⟩, ⟨3⟩, ⟨2⟩] (some 1)]

theorem flagged_reachable : Reachable .empty { maxDepth := 4 } flagged :=
  Reachable.allocAll .refl (by decide)

theorem tuple_reports_first_unfilled_place_flagged :
    let items : List Value := [.string "a", .undefined, .boolean true]
    let outcome : Outcome := .failure (.within (.index 2) (.wrongType "string" "boolean"))
    let used := (flagged.validateById (.array items) ⟨4⟩).2
    (flagged.validateById (.array items) ⟨4⟩).1 = .ok outcome ∧
      TupleOutcome (fun item element => (used.validateById item element).1) [⟨2⟩, ⟨3⟩, ⟨2⟩] (some 1)
        items outcome := by
  intro items outcome used
  have answered : (flagged.validateById (.array items) ⟨4⟩).1 = .ok outcome := rfl
  exact ⟨answered, tuple_reports_first_unfilled_place flagged_reachable rfl answered (.inl .refl)⟩

end Conform.Validator
