import Conform.Proofs.Alike.Surveys
import Conform.Proofs.Shape.Algebra
import Conform.Proofs.Validator.Tolerance
import Conform.Proofs.Validator.Yields
import Conform.Proofs.Value.Reordered

/-! Relaxed checks.  A check relaxes another one if it accepts whatever the other one accepts.  It
may be made in another state, on related nodes and on a related value; it may tolerate more fields,
and it may let `null` and `undefined` stand for each other. -/

namespace Conform

namespace ForeignFields

variable {fields wider : ForeignFields}

structure Included (fields wider : ForeignFields) : Prop where
  names : fields.names ⊆ wider.names
  stringKeys : fields.stringKeys = true → wider.stringKeys = true
  numberKeys : fields.numberKeys = true → wider.numberKeys = true

theorem Included.refl (fields : ForeignFields) : fields.Included fields :=
  ⟨List.Subset.refl _, id, id⟩

theorem Included.contains (included : fields.Included wider) {key : String}
    (declared : fields.contains key = true) : wider.contains key = true :=
  List.elem_iff.mpr (included.names (List.elem_iff.mp declared))

theorem Included.permits (included : fields.Included wider) {key : String}
    (permitted : fields.permits key = true) : wider.permits key = true := by
  simp only [ForeignFields.permits, Bool.or_eq_true, Bool.and_eq_true] at permitted ⊢
  rcases permitted with (strings | declared) | ⟨numbers, numeric⟩
  · exact .inl (.inl (included.stringKeys strings))
  · exact .inl (.inr (included.contains declared))
  · exact .inr ⟨included.numberKeys numbers, numeric⟩

end ForeignFields

/-- Related properties, of which the other one may be optional where the first is not. -/
structure Property.Eases (ids : SchemaId → SchemaId → Prop) (property other : Property) : Prop where
  name : property.name = other.name
  optional : property.optional = true → other.optional = true
  type : ids property.type other.type

structure Shape.Eases (ids : SchemaId → SchemaId → Prop) (shape other : Shape) : Prop where
  properties : List.Forall₂ (Property.Eases ids) shape.properties other.properties
  index : Option.Rel (IndexSignature.Related ids) shape.index other.index

namespace Shape

variable {ids : SchemaId → SchemaId → Prop} {shape other : Shape}

theorem Related.eases (related : Shape.Related ids shape other) : Shape.Eases ids shape other :=
  ⟨related.properties.imp fun _ _ here => ⟨here.name, here.optional ▸ id, here.type⟩, related.index⟩

theorem Related.eases_optional (related : Shape.Related ids shape other) :
    Shape.Eases ids shape other.allOptional :=
  ⟨List.forall₂_map_right_iff.mpr
    (related.properties.imp fun _ _ here => ⟨here.name, fun _ => rfl, here.type⟩), related.index⟩

namespace Eases

variable (eases : Shape.Eases ids shape other)

include eases

/-- Without the optional properties the two are related. -/
theorem forget : Shape.Related ids shape.allOptional other.allOptional :=
  ⟨List.rel_map (fun _ _ here => ⟨here.name, rfl, here.type⟩) eases.properties, eases.index⟩

theorem names_eq : shape.names = other.names := by
  simpa using eases.forget.names_eq

theorem declares_eq (name : String) : shape.declares name = other.declares name := by
  simpa using eases.forget.declares_eq name

theorem keyType_eq : shape.index.map (·.keyType) = other.index.map (·.keyType) :=
  eases.forget.keyType_eq

end Eases

end Shape

/-- Where `null` and `undefined` stand for each other, they still do. -/
def Options.Looser (options looser : Options) : Prop :=
  options.strictNullChecks = false → looser.strictNullChecks = false

theorem Options.Looser.refl (options : Options) : options.Looser options :=
  id

namespace Validator

open Run Resolver

variable {core steps more levels moreLevels : Nat} {state left right : ResolverState} {options looser : Options}
  {value otherValue : Value} {object otherObject : Object} {id other : SchemaId} {outcome : Outcome}
  {values : Value → Value → Prop} {ids : SchemaId → SchemaId → Prop} {checkPart otherPart : Value → SchemaId → Run Outcome}
  {next otherNext : Run Outcome} {fields wider : ForeignFields}
  {tolerated otherTolerated : Option ForeignFields} {shape otherShape : Shape}

/-- If the one accepts and the other has an answer, the other accepts too. -/
def Relaxes (left right : ResolverState) (run otherRun : Run Outcome) : Prop :=
  Yields run left .success → ∀ outcome, Yields otherRun right outcome → outcome = .success

theorem Relaxes.self (run : Run Outcome) : Relaxes state state run run :=
  fun accepted _ yields => yields.unique accepted

theorem Relaxes.of_failure {failure : Failure} {otherRun : Run Outcome} :
    Relaxes left right (pure (.failure failure)) otherRun := by
  intro accepted
  cases accepted

theorem Relaxes.pure {given otherGiven : Outcome} (implies : given = .success → otherGiven = .success) :
    Relaxes left right (pure given) (pure otherGiven) := by
  intro accepted outcome yields
  cases yields
  exact implies (Except.ok.inj (Prod.mk.inj accepted).1)

/-- Fields that were tolerated still are. -/
def Tolerates (otherTolerated tolerated : Option ForeignFields) : Prop :=
  ∀ fields, tolerated = some fields → ∃ wider, otherTolerated = some wider ∧ fields.Included wider

theorem Tolerates.none : Tolerates otherTolerated none :=
  nofun

theorem Tolerates.some (included : fields.Included wider) : Tolerates (some wider) (some fields) := by
  rintro _ ⟨⟩
  exact ⟨wider, rfl, included⟩

theorem Tolerates.any {holds : ForeignFields → Bool} (tolerates : Tolerates otherTolerated tolerated)
    (keeps : ∀ {fields wider : ForeignFields}, fields.Included wider → holds fields = true →
      holds wider = true) (some_holds : tolerated.any holds = true) : otherTolerated.any holds = true := by
  cases tolerated with
  | none => cases some_holds
  | some fields =>
      obtain ⟨wider, rfl, included⟩ := tolerates fields rfl
      exact keeps included some_holds

theorem matchesLiteral_looser (looser_than : options.Looser looser)
    (same : value.Resembles values otherValue) {literal : Literal}
    (accepted : matchesLiteral options literal value = true) :
    matchesLiteral looser literal otherValue = true := by
  cases same with
  | plain =>
      unfold matchesLiteral at accepted ⊢
      split <;> simp_all [Options.Looser]
  | array | object => cases literal <;> cases accepted

theorem checkLiteral_looser (looser_than : options.Looser looser)
    (same : value.Resembles values otherValue) {literal : Literal}
    (accepted : checkLiteral options literal value = .success) :
    checkLiteral looser literal otherValue = .success := by
  unfold checkLiteral at accepted ⊢
  split at accepted
  · rename_i matched
    rw [if_pos (matchesLiteral_looser looser_than same matched)]
  · cases accepted

theorem checkBuffer_resembles (same : value.Resembles values otherValue) (kind : Option TypedArrayKind) :
    checkBuffer kind otherValue = checkBuffer kind value := by
  cases same <;> cases kind <;> rfl

/-- What counts as left out still does, and beyond that only an optional `null` may. -/
theorem isAbsent_looser (looser_than : options.Looser looser) {optional easier : Bool}
    (eases : optional = true → easier = true) (value : Value) :
    (isAbsent options optional value = true → isAbsent looser easier value = true) ∧
      (isAbsent looser easier value = true → isAbsent options optional value = true ∨ easier = true) := by
  cases value with
  | null =>
      simp only [isAbsent, Bool.and_eq_true, Bool.not_eq_true']
      exact ⟨fun ⟨declared, loose⟩ => ⟨eases declared, looser_than loose⟩,
        fun ⟨declared, _⟩ => .inr declared⟩
  | _ => simp [isAbsent]

theorem isAbsent_resembles (resembles : value.Resembles values otherValue) (optional : Bool) :
    isAbsent options optional otherValue = isAbsent options optional value := by
  cases resembles <;> rfl

theorem presentValue_looser (looser_than : options.Looser looser)
    (alike : ∀ {part otherPart}, values part otherPart → part.Resembles values otherPart)
    (resembles : object.Resembles values otherObject) {property easier : Property}
    (eases : property.Eases ids easier) :
    Option.Rel values (presentValue options object property) (presentValue looser otherObject easier) ∨
      presentValue looser otherObject easier = none ∧ easier.optional = true := by
  unfold presentValue
  rw [← eases.name]
  rcases Shape.rel_cases (resembles.under property.name) with ⟨missing, missing'⟩ | ⟨part, otherPart, here, there, related⟩
  · rw [missing, missing']
    exact .inl .none
  · obtain ⟨still, newly⟩ := isAbsent_looser looser_than eases.optional part
    simp only [here, there, Option.filter_some, isAbsent_resembles (alike related)]
    cases strict : isAbsent options property.optional part with
    | true =>
        rw [still strict]
        exact .inl .none
    | false =>
        cases loose : isAbsent looser easier.optional part with
        | false => exact .inl (.some related)
        | true =>
            refine .inr ⟨rfl, (newly loose).resolve_left ?_⟩
            simp [strict]

/-- Two settled states, with checks of parts of which the other ones relax the first on related
values. -/
structure Relaxing (core : Nat) (values : Value → Value → Prop) (ids : SchemaId → SchemaId → Prop)
    (left right : ResolverState) (checkPart otherPart : Value → SchemaId → Run Outcome) : Prop where
  settled : Settled core ids left right
  stable : ∀ part id, Stable core (checkPart part id)
  otherStable : ∀ part id, Stable core (otherPart part id)
  alike : ∀ {value otherValue}, values value otherValue → value.Resembles values otherValue
  parts : ∀ {value otherValue}, values value otherValue → ∀ {id other}, ids id other →
    Relaxes left right (checkPart value id) (otherPart otherValue other)

theorem Relaxing.self (stable : ∀ part id, Stable core (checkPart part id)) (sound : state.Sound core) :
    Relaxing core Eq Eq state state checkPart checkPart where
  settled := .self sound
  stable := stable
  otherStable := stable
  alike same := same ▸ .refl Eq.refl _
  parts {_ _} same {_ _} related := same ▸ related ▸ .self _

section

variable (relaxing : Relaxing core values ids left right checkPart otherPart)

include relaxing

theorem checkThen_relaxes {segment : Segment} {part otherValue : Value} (same : values part otherValue)
    (related : ids id other) (rest : Stable core next) (otherRest : Stable core otherNext)
    (onward : Relaxes left right next otherNext) :
    Relaxes left right (checkThen checkPart segment part id next)
      (checkThen otherPart segment otherValue other otherNext) := by
  intro accepted outcome yields
  rcases checkThen_yields relaxing.stable relaxing.settled.sound rest accepted with
    ⟨rejected, -⟩ | ⟨first, last⟩
  · exact (rejected rfl).elim
  · rcases checkThen_yields relaxing.otherStable relaxing.settled.otherSound otherRest yields with
      ⟨-, failure, failed⟩ | ⟨-, otherLast⟩
    · cases relaxing.parts same related first _ failed
    · exact onward last _ otherLast

/-- A part is left out by the other check only. -/
theorem checkThen_relaxes_skipped {segment : Segment} {part : Value} (rest : Stable core next)
    (onward : Relaxes left right next otherNext) :
    Relaxes left right (checkThen checkPart segment part id next) otherNext := by
  intro accepted outcome yields
  rcases checkThen_yields relaxing.stable relaxing.settled.sound rest accepted with
    ⟨rejected, -⟩ | ⟨-, last⟩
  · exact (rejected rfl).elim
  · exact onward last _ yields

theorem checkItems_relaxes {position : Nat} {items others : List Value} (related : ids id other)
    (same : List.Forall₂ values items others) :
    Relaxes left right (checkItems checkPart id position items) (checkItems otherPart other position others) := by
  induction same generalizing position with
  | nil => exact .pure fun same => same
  | @cons _ _ items others here _ ih =>
      exact checkThen_relaxes relaxing here related (checkItems_stable relaxing.stable _ _ items)
        (checkItems_stable relaxing.otherStable _ _ others) ih

theorem checkArray_relaxes (same : value.Resembles values otherValue) (related : ids id other) :
    Relaxes left right (checkArray checkPart id value) (checkArray otherPart other otherValue) := by
  cases same with
  | array each => exact checkItems_relaxes relaxing related each
  | plain plain =>
      cases value with
      | array items => exact plain.elim
      | _ => exact .of_failure
  | object => exact .of_failure

theorem checkPlaces_relaxes {required position : Nat} {elements others : List SchemaId}
    {items otherItems : List Value} (related : List.Forall₂ ids elements others)
    (same : List.Forall₂ values items otherItems) :
    Relaxes left right (checkPlaces checkPart required position elements items)
      (checkPlaces otherPart required position others otherItems) := by
  induction related generalizing position items otherItems with
  | nil => exact .pure fun same => same
  | @cons element other elements others here _ ih =>
      have tails : List.Forall₂ values items.tail otherItems.tail := by
        cases same with
        | nil => exact .nil
        | cons _ following => exact following
      have absent : Relaxes left right
          (if position < required then
            return .failure (.within (.index position) .missingMember)
          else checkPlaces checkPart required (position + 1) elements items.tail)
          (if position < required then
            return .failure (.within (.index position) .missingMember)
          else checkPlaces otherPart required (position + 1) others otherItems.tail) := by
        split
        · exact .pure fun same => same
        · exact ih tails
      cases same with
      | nil => exact absent
      | @cons item otherItem items otherItems first following =>
          have rest := checkPlaces_stable relaxing.stable required (position + 1) elements items
          have otherRest := checkPlaces_stable relaxing.otherStable required (position + 1) others otherItems
          cases relaxing.alike first with
          | plain plain =>
              cases item with
              | undefined => exact absent
              | array _ | object _ => exact plain.elim
              | _ => exact checkThen_relaxes relaxing first here rest otherRest (ih following)
          | array | object => exact checkThen_relaxes relaxing first here rest otherRest (ih following)

theorem checkTuple_relaxes {elements others : List SchemaId} {optionalStart : Option Nat}
    (same : value.Resembles values otherValue) (related : List.Forall₂ ids elements others) :
    Relaxes left right (checkTuple checkPart elements optionalStart value)
      (checkTuple otherPart others optionalStart otherValue) := by
  cases same with
  | array each =>
      simp only [checkTuple, ← related.length_eq, ← each.length_eq]
      split
      · exact .pure fun same => same
      · exact checkPlaces_relaxes relaxing related each
  | plain plain =>
      cases value with
      | array items => exact plain.elim
      | _ => exact .of_failure
  | object => exact .of_failure

theorem checkProperties_relaxes {properties others : List Property} (loose : options.Looser looser)
    (same : object.Resembles values otherObject)
    (eases : List.Forall₂ (Property.Eases ids) properties others) (rest : Stable core next)
    (otherRest : Stable core otherNext) (onward : Relaxes left right next otherNext) :
    Relaxes left right (checkProperties checkPart options object next properties)
      (checkProperties otherPart looser otherObject otherNext others) := by
  induction eases with
  | nil => exact onward
  | @cons property easier properties others here _ ih =>
      simp only [checkProperties, ← here.name]
      have stable : Stable core (checkProperties checkPart options object next properties) :=
        checkProperties_stable relaxing.stable rest properties
      rcases presentValue_looser loose relaxing.alike same here with given | ⟨left_out, optional⟩
      · rcases Shape.rel_cases given with ⟨missing, missing'⟩ | ⟨part, otherPart, given, given', parts⟩
        · rw [missing, missing']
          dsimp only
          cases declared : property.optional with
          | true =>
              rw [if_pos rfl, if_pos (here.optional declared)]
              exact ih
          | false => exact .of_failure
        · rw [given, given']
          exact checkThen_relaxes relaxing parts here.type stable
            (checkProperties_stable relaxing.otherStable otherRest others) ih
      · simp only [left_out, optional, if_true]
        cases presentValue options object property with
        | some part => exact checkThen_relaxes_skipped relaxing stable ih
        | none =>
            dsimp only
            cases property.optional with
            | true => exact ih
            | false => exact .of_failure

theorem checkEntries_relaxes {entries others : List (String × Value)} {isDeclared isTolerated : String → Bool}
    (keeps : ∀ key, isDeclared key = true → isTolerated key = true) (related : ids id other)
    (origin : ∀ {key part}, (key, part) ∈ others → ∃ source, (key, source) ∈ entries ∧ values source part) :
    Relaxes left right (checkEntries checkPart isDeclared id entries)
      (checkEntries otherPart isTolerated other others) := by
  intro accepted
  induction others with
  | nil =>
      intro outcome yields
      cases yields
      rfl
  | cons entry others ih =>
      obtain ⟨key, part⟩ := entry
      obtain ⟨source, listed, same⟩ := origin (List.mem_cons_self ..)
      have rest := checkEntries_stable relaxing.otherStable isTolerated other others
      simp only [checkEntries]
      split
      · exact ih fun listed => origin (List.mem_cons_of_mem _ listed)
      · next uncovered =>
          have undeclared : isDeclared key = false :=
            Bool.eq_false_iff.mpr fun declared => uncovered (keeps key declared)
          have here := checkEntries_accepted relaxing.stable relaxing.settled.sound listed undeclared accepted
          intro outcome yields
          rcases checkThen_yields relaxing.otherStable relaxing.settled.otherSound rest yields with
            ⟨-, failure, failed⟩ | ⟨-, last⟩
          · cases relaxing.parts same related here _ failed
          · exact ih (fun listed => origin (List.mem_cons_of_mem _ listed)) outcome last

omit relaxing in
theorem checkExcess_tolerated {keys others : List String} {isAccounted isTolerated : String → Bool}
    (subset : others ⊆ keys) (keeps : ∀ key, isAccounted key = true → isTolerated key = true)
    (accepted : checkExcess isAccounted keys = .success) : checkExcess isTolerated others = .success :=
  checkExcess_success.mpr fun key listed =>
    keeps key (checkExcess_success.mp accepted key (subset listed))

theorem checkRemaining_relaxes (same : object.Resembles values otherObject)
    (tolerates : Tolerates otherTolerated tolerated) (eases : Shape.Eases ids shape otherShape) :
    Relaxes left right (checkRemaining checkPart object shape tolerated)
      (checkRemaining otherPart otherObject otherShape otherTolerated) := by
  simp only [checkRemaining, ← eases.declares_eq]
  rcases Shape.rel_cases eases.index with ⟨unsigned, unsigned'⟩ | ⟨signature, _, signed, signed', here⟩
  · rw [unsigned, unsigned']
    refine .pure (checkExcess_tolerated (fun _ => same.keys) fun key accounted => ?_)
    simp only [Bool.or_eq_true] at accounted ⊢
    exact accounted.imp_right (tolerates.any fun included => included.permits)
  · rw [signed, signed']
    refine checkEntries_relaxes relaxing (fun key declared => ?_) here.type same.origin
    simp only [Bool.or_eq_true] at declared ⊢
    exact declared.imp_right (tolerates.any fun included => included.contains)

theorem checkFlat_relaxes (same : value.Resembles values otherValue) (loose : options.Looser looser)
    (tolerates : Tolerates otherTolerated tolerated) (eases : Shape.Eases ids shape otherShape) :
    Relaxes left right (checkFlat options checkPart value tolerated shape)
      (checkFlat looser otherPart otherValue otherTolerated otherShape) := by
  cases same with
  | @object object otherObject entries =>
      simp only [checkFlat, checkShape]
      cases numeric : checkNumberKeys shape.index object.keys with
      | failure failure => exact .of_failure
      | success =>
          have numeric' : checkNumberKeys otherShape.index otherObject.keys = .success :=
            checkNumberKeys_fewer eases.keyType_eq (fun _ => entries.keys) numeric
          rw [numeric']
          exact checkProperties_relaxes relaxing loose entries eases.properties
            (checkRemaining_stable relaxing.stable shape tolerated)
            (checkRemaining_stable relaxing.otherStable otherShape otherTolerated)
            (checkRemaining_relaxes relaxing entries tolerates eases)
  | plain plain =>
      cases value with
      | object object => exact plain.elim
      | _ => exact .of_failure
  | array => exact .of_failure

/-- The rule of a node that is no reference and has neither members nor a shape does not depend on
the steps. -/
theorem checkWithin_single_relaxes (same : value.Resembles values otherValue) (loose : options.Looser looser)
    {node otherNode : Node} (found : left.arena.get? id = some node)
    (found' : right.arena.get? other = some otherNode) (nodes : Node.Related ids node otherNode)
    (concrete : node.IsConcrete) (single : ¬ node.Combines) (unlike : node.isInterfaceLike = false) :
    Relaxes left right (checkWithin options checkPart value steps id)
      (checkWithin looser otherPart otherValue more other) := by
  intro accepted outcome yields
  cases steps with
  | zero => cases accepted
  | succ steps =>
      cases more with
      | zero => cases yields
      | succ more =>
          have rest := (bind_ok (node_apply found)).symm.trans accepted
          have rest' := (bind_ok (node_apply found')).symm.trans yields
          cases nodes with
          | @plain node plain =>
              cases node with
              | literal literal => exact Relaxes.pure (checkLiteral_looser loose same) rest outcome rest'
              | buffer kind => exact Relaxes.pure (checkBuffer_resembles same kind).trans rest outcome rest'
              | reference _ => exact concrete.elim
              | _ =>
                  first
                  | exact plain.elim
                  | exact Relaxes.pure (fun given => by cases same <;> exact given) rest outcome rest'
          | array elements => exact checkArray_relaxes relaxing same elements rest outcome rest'
          | tuple elements _ => exact checkTuple_relaxes relaxing same elements rest outcome rest'
          | indexedAccess _ _ => exact concrete.elim
          | union _ | intersection _ => exact (single trivial).elim
          | interface _ _ _ | mapped _ _ => cases unlike

end

section

variable {members otherMembers : SchemaId → Run Outcome} {listed others : List SchemaId}
  {failures otherFailures : List Failure} (sound : left.Sound core) (otherSound : right.Sound core)
  (stable : ∀ id, Stable core (members id)) (otherStable : ∀ id, Stable core (otherMembers id))

include sound otherSound stable otherStable

/-- Each member of the one is relaxed by some member of the other. -/
theorem checkAny_relaxes_some (each : ∀ id ∈ listed, ∃ other ∈ others,
      Relaxes left right (members id) (otherMembers other)) :
    Relaxes left right (checkAny members failures listed) (checkAny otherMembers otherFailures others) := by
  intro accepted outcome yields
  rcases checkAny_yields stable sound accepted with ⟨-, member, inside, here⟩ | ⟨rejected, -⟩
  · rcases checkAny_yields otherStable otherSound yields with ⟨same, -⟩ | ⟨-, all⟩
    · exact same
    · obtain ⟨otherMember, inside', relaxes⟩ := each member inside
      obtain ⟨failure, failed⟩ := all otherMember inside'
      cases relaxes here _ failed
  · exact (rejected rfl).elim

theorem checkAny_relaxes {pairs : SchemaId → SchemaId → Prop} (paired : List.Forall₂ pairs listed others)
    (each : ∀ {id other}, pairs id other → Relaxes left right (members id) (otherMembers other)) :
    Relaxes left right (checkAny members failures listed) (checkAny otherMembers otherFailures others) := by
  refine checkAny_relaxes_some sound otherSound stable otherStable fun id inside => ?_
  obtain ⟨other, inside', pair⟩ := exists_counterpart paired inside
  exact ⟨other, inside', each pair⟩

end

/-- A node that is accepted is accepted in another examination, if all that the two come down to
is. -/
theorem Examines.relaxes (settled : Settled core ids left right)
    {members otherMembers union otherUnion : SchemaId → Run Outcome} {flat otherFlat : Shape → Run Outcome}
    {own otherOwn : Run Outcome} {node otherNode : Node} (related : ids id other)
    (found : left.arena.get? id = some node) (found' : right.arena.get? other = some otherNode)
    (stable : ∀ id, Stable core (members id)) (otherStable : ∀ id, Stable core (otherMembers id))
    (accepted : Examines left members union flat own id .success node)
    (examines : Examines right otherMembers otherUnion otherFlat otherOwn other outcome otherNode)
    (each : node.Combines → ∀ {id other}, ids id other → Relaxes left right (members id) (otherMembers other))
    (distributed : ∀ {here there}, left.distributions.find? id = some here →
      right.distributions.find? other = some there → ids here there →
      Relaxes left right (union here) (otherUnion there))
    (declared : ∀ {shape otherShape}, Declares left id shape → Shape.Related ids shape otherShape →
      Relaxes left right (flat shape) (otherFlat otherShape))
    (single : Node.Related ids node otherNode → ¬ node.Combines → node.isInterfaceLike = false →
      Relaxes left right own otherOwn) : outcome = .success := by
  have same := settled.corresponds.nodes related found found'
  have shaped (known : (∃ union', left.distributions.find? id = some union' ∧
        Yields (union union') left .success) ∨ ∃ shape, Declares left id shape ∧
          Yields (flat shape) left .success)
      (again : (∃ union', right.distributions.find? other = some union' ∧
        Yields (otherUnion union') right outcome) ∨ ∃ shape, Declares right other shape ∧
          Yields (otherFlat shape) right outcome) : outcome = .success := by
    rcases known with ⟨here, known, accepted⟩ | ⟨shape, declares, accepted⟩
    · rcases again with ⟨there, known', yields⟩ | ⟨shape, declares, -⟩
      · exact distributed known known' (settled.distributions related known known') accepted _ yields
      · cases known.symm.trans (settled.swap.undistributed related declares.undistributed)
    · rcases again with ⟨there, known, -⟩ | ⟨otherShape, declares', yields⟩
      · cases known.symm.trans (settled.undistributed related declares.undistributed)
      · have shapes := settled.shapes_related related declares.shape declares'.shape
        exact declared declares shapes accepted _ yields
  cases same with
  | @plain node plain =>
      cases node <;> first | exact plain.elim | exact single (.plain trivial) nofun rfl accepted _ examines
  | union listed =>
      exact checkAny_relaxes settled.sound settled.otherSound stable otherStable listed (each trivial)
        accepted _ examines
  | intersection listed =>
      rcases checkAll_yields stable settled.sound accepted with ⟨-, all⟩ | ⟨rejected, -⟩
      · rcases checkAll_yields otherStable settled.otherSound examines with
          ⟨same, -⟩ | ⟨-, otherMember, inside', failure, failed⟩
        · exact same
        · obtain ⟨member, inside, pair⟩ := exists_origin listed inside'
          cases each trivial pair (all member inside) _ failed
      · exact (rejected rfl).elim
  | interface declared signed inherited => exact shaped accepted examines
  | mapped combinators targets => exact shaped accepted examines
  | array elements => exact single (.array elements) nofun rfl accepted _ examines
  | tuple elements start => exact single (.tuple elements start) nofun rfl accepted _ examines
  | indexedAccess objects index => exact single (.indexedAccess objects index) nofun rfl accepted _ examines

section

variable (relaxing : Relaxing core values ids left right checkPart otherPart)
  (same : value.Resembles values otherValue) (loose : options.Looser looser)

include relaxing same loose

/-- A member that is accepted stays so when more is tolerated. -/
theorem checkMemberWithin_relaxes (included : fields.Included wider) (related : ids id other) :
    Relaxes left right (checkMemberWithin options checkPart value steps fields id)
      (checkMemberWithin looser otherPart otherValue more wider other) := by
  induction steps generalizing more id other with
  | zero => exact fun accepted => nomatch accepted
  | succ steps ih =>
      intro accepted outcome yields
      obtain ⟨_, target, node, left_over, resolves, found, here⟩ :=
        checkMemberWithin_yields relaxing.stable relaxing.settled.sound accepted
      obtain ⟨fewer, target', node', -, resolves', found', there⟩ :=
        checkMemberWithin_yields relaxing.otherStable relaxing.settled.otherSound yields
      cases left_over
      have pair := Resolves.related relaxing.settled.corresponds related resolves resolves'
      refine here.relaxes relaxing.settled pair found found' (checkMemberWithin_stable relaxing.stable _ _)
        (checkMemberWithin_stable relaxing.otherStable _ _) there (fun _ _ _ => ih) (fun _ _ => ih)
        (fun _ shapes => checkFlat_relaxes relaxing same loose (.some included) shapes.eases) fun nodes single unlike => ?_
      exact checkWithin_single_relaxes relaxing same loose found found' nodes
        (resolves.target_concrete relaxing.settled.sound found) single unlike

theorem checkWithin_relaxes (related : ids id other) :
    Relaxes left right (checkWithin options checkPart value steps id)
      (checkWithin looser otherPart otherValue more other) := by
  induction steps using Nat.strongRecOn generalizing more id other with
  | ind steps ih =>
      intro accepted outcome yields
      obtain ⟨fewer, target, node, fields, less, resolves, found, known, here⟩ :=
        checkWithin_examines relaxing.stable relaxing.settled.sound accepted
      obtain ⟨fewer', target', node', fields', -, resolves', found', known', there⟩ :=
        checkWithin_examines relaxing.otherStable relaxing.settled.otherSound yields
      have pair := Resolves.related relaxing.settled.corresponds related resolves resolves'
      have nodes := relaxing.settled.corresponds.nodes pair found found'
      refine here.relaxes relaxing.settled pair found found' (checkMemberWithin_stable relaxing.stable _ _)
        (checkMemberWithin_stable relaxing.otherStable _ _) there (fun combines _ _ members => ?_)
        (fun _ _ => ih fewer less) (fun _ shapes => checkFlat_relaxes relaxing same loose .none shapes.eases)
        fun nodes single unlike => ?_
      · have combines' : node'.Combines := by cases nodes <;> exact combines
        have fields_eq := relaxing.settled.surveys_eq pair
          (relaxing.settled.sound.foreign target fields (known combines))
          (relaxing.settled.otherSound.foreign target' fields' (known' combines'))
        exact fields_eq ▸ checkMemberWithin_relaxes relaxing same loose (.refl fields) members
      · exact checkWithin_single_relaxes relaxing same loose found found' nodes
          (resolves.target_concrete relaxing.settled.sound found) single unlike

end

theorem checkLevels_relaxes (settled : Settled core ids left right)
    (alike : ∀ {value otherValue}, values value otherValue → value.Resembles values otherValue)
    (loose : options.Looser looser) (same : values value otherValue) (related : ids id other) :
    Relaxes left right (checkLevels options levels value id) (checkLevels looser moreLevels otherValue other) := by
  induction levels generalizing moreLevels value otherValue id other with
  | zero => exact fun accepted => nomatch accepted
  | succ levels ih =>
      cases moreLevels with
      | zero => exact fun _ _ yields => nomatch yields
      | succ moreLevels =>
          have relaxing : Relaxing core values ids left right (checkLevels options levels)
              (checkLevels looser moreLevels) :=
            ⟨settled, checkLevels_stable levels, checkLevels_stable moreLevels, alike,
              fun {_ _} same {_ _} related => ih same related⟩
          exact checkWithin_relaxes relaxing (alike same) loose related

section

variable (parts : ∀ part id, Stable core (checkPart part id)) (sound : state.Sound core)

include parts sound

theorem checkMemberWithin_monotone (included : fields.Included wider)
    (accepted : Yields (checkMemberWithin options checkPart value steps fields id) state .success)
    (yields : Yields (checkMemberWithin options checkPart value more wider id) state outcome) :
    outcome = .success :=
  have relaxing : Relaxing core Eq Eq state state checkPart checkPart := .self parts sound
  checkMemberWithin_relaxes relaxing (.refl Eq.refl value) (Options.Looser.refl options) included rfl
    accepted _ yields

end

end Validator

end Conform
