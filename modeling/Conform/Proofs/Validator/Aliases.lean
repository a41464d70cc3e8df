import Conform.Proofs.Alias.Nodes
import Conform.Proofs.Validator.Searching

/-! Aliases.  Wherever a node refers to another one, a chain that leads there may stand for it: checks of
nodes whose children resolve alike have the same outcome, whatever the values are. -/

namespace Conform.Validator

open Run Resolver Agreement Distributed Alias

variable {core : Nat} {registry : Registry} {options : Options} {validator one other later : Validator}
  {id twin target first second : SchemaId} {ids : List SchemaId} {node otherNode : Node} {value : Value}

/-- The nodes resolve to one node, first the one and then the other. -/
def ResolveAlike (validator : Validator) (id twin : SchemaId) : Prop :=
  ∃ target, (validator.resolve id).1 = .ok target ∧ ((validator.resolve id).2.resolve twin).1 = .ok target

/-- The same answer, up to where a cycle has been noticed, unless one of them is that the limit is
exceeded. -/
def SameUncircled {α : Type} (answer other : Except SchemaError α) : Prop :=
  IsLimited answer ∨ IsLimited other ∨ answer.mapError SchemaError.uncircled = other.mapError SchemaError.uncircled

theorem resolves_of_ok (sound : validator.state.Sound core) (resolved : (validator.resolve id).1 = .ok target) :
    Resolves (validator.resolve id).2.state id target :=
  ((resolveWithin_meets _ _ id validator.state sound).answers _ _ (Prod.ext resolved rfl)).1

theorem positive_of_ok (resolved : (validator.resolve id).1 = .ok target) : 0 < validator.options.maxDepth := by
  rcases Nat.eq_zero_or_pos validator.options.maxDepth with none | positive
  · have stops : (validator.resolve id).1 = .error (.depthLimitExceeded validator.options.maxDepth) := by
      rw [Validator.resolve, none]
      rfl
    cases stops.symm.trans resolved
  · exact positive

section

variable (sound : validator.state.Sound core) (leads : validator.Leads later)
  (present : id.index < validator.state.arena.size)

include sound leads present

/-- A node is resolved later in the same steps as now. -/
theorem resolve_agrees_later : Agrees core False (.same validator.state later.state)
    (Resolver.resolve validator.options.maxDepth id) (Resolver.resolve later.options.maxDepth id)
      fun resolved otherResolved next => next.ids resolved otherResolved := by
  have advances := leads.advances sound
  rw [advances.options]
  exact resolve_agrees validator.options.maxDepth (.same sound advances.sound advances.grown) ⟨rfl, present⟩

/-- What can be resolved can be resolved later. -/
theorem resolve_later (resolved : (validator.resolve id).1 = .ok target) :
    ∃ found, (later.resolve id).1 = .ok found := by
  obtain ⟨found, next, ran, -⟩ :=
    (resolve_agrees_later sound leads present).of_left not_false (Prod.ext resolved rfl)
  exact ⟨found, congrArg Prod.fst ran⟩

/-- Where the one node is resolved the other one resolves to the same. -/
theorem ResolveAlike.follows (alike : validator.ResolveAlike id twin)
    (twinPresent : twin.index < validator.state.arena.size) (resolves : Resolves later.state id target) :
    (later.resolve twin).1 = .ok target := by
  obtain ⟨first, resolved, resolved'⟩ := alike
  have options := (leads.advances sound).options
  obtain ⟨found, middle, ran, left, grown, linked', pair⟩ :=
    (resolve_agrees_later sound leads present).of_left not_false (Prod.ext resolved rfl)
  -- On the right the one node is resolved already, so nothing is added.
  have stays : Resolver.resolve later.options.maxDepth id later.state = (.ok target, later.state) := by
    obtain ⟨limit, depth⟩ := Nat.exists_eq_add_one.mpr (positive_of_ok resolved)
    rw [options, depth]
    exact (resolves.lasts (limit + 1) limit).now
  have same := ran.symm.trans stays
  simp only [Prod.mk.injEq, Except.ok.injEq] at same
  obtain ⟨rfl, right⟩ := same
  have twins : middle.ids twin twin := grown.ids _ _ ⟨rfl, twinPresent⟩
  have agrees' : Agrees core False middle _ _ _ := resolve_agrees validator.options.maxDepth linked' twins
  have ran' : Resolver.resolve validator.options.maxDepth twin middle.left =
      (.ok first, (Resolver.resolve validator.options.maxDepth twin middle.left).2) := by
    rw [left]
    exact Prod.ext resolved' rfl
  obtain ⟨met, last, ends, -, grown', linked'', pair'⟩ := agrees'.of_left not_false ran'
  cases linked''.functional _ _ _ pair' (grown'.ids _ _ pair)
  rw [right, ← options] at ends
  exact congrArg Prod.fst ends

end

/-- Resolves the nodes one after the other. -/
def resolveAll (validator : Validator) (ids : List SchemaId) : Validator :=
  ids.foldl (fun validator id => (validator.resolve id).2) validator

theorem resolveAll_leads (validator : Validator) (ids : List SchemaId) :
    validator.Leads (validator.resolveAll ids) := by
  induction ids generalizing validator with
  | nil => exact .refl
  | cons id rest ih => exact .head (.resolve validator id) (ih _)

theorem resolveAll_grows (sound : validator.state.Sound core) (ids : List SchemaId) :
    Grows core validator.state (validator.resolveAll ids).state := by
  induction ids generalizing validator with
  | nil => exact .refl sound
  | cons id rest ih =>
      have grows : Grows core validator.state (validator.resolve id).2.state :=
        (resolveWithin_stable _ _ id validator.state sound).leaves
      exact grows.trans (ih grows.sound)

/-- What always resolves as told has been resolved like that then. -/
theorem resolves_resolveAll {told : SchemaId → Prop} (sound : validator.state.Sound core) (listed : id ∈ ids)
    (resolved : ∀ later, validator.Leads later → ∃ target, told target ∧ (later.resolve id).1 = .ok target) :
    ∃ target, told target ∧ Resolves (validator.resolveAll ids).state id target := by
  induction ids generalizing validator with
  | nil => cases listed
  | cons head rest ih =>
      have step : validator.Leads (validator.resolve head).2 := .single (.resolve validator head)
      have sound' := (step.advances sound).sound
      rcases List.mem_cons.mp listed with rfl | listed
      · obtain ⟨target, here, ran⟩ := resolved validator .refl
        have grown := (resolveAll_grows sound' rest).grown
        exact ⟨target, here, (resolves_of_ok sound ran).later grown⟩
      · exact ih sound' listed fun later leads => resolved later (step.trans leads)

/-- Nodes that resolve alike can be resolved, all of them, without their answers being asked for. -/
theorem exists_joined (sound : validator.state.Sound core) (leads : validator.Leads later)
    (found : validator.state.arena.get? first = some node)
    (found' : validator.state.arena.get? second = some otherNode)
    (related : Node.Related validator.ResolveAlike node otherNode) :
    ∃ last, later.Leads last ∧ Grows core later.state last.state ∧
      Node.Related (Joins last.state) node otherNode := by
  have issued := children_issued sound found
  have issued' := children_issued sound found'
  have middle_leads := resolveAll_leads later node.children
  have last_leads := resolveAll_leads (later.resolveAll node.children) otherNode.children
  have sound' := (leads.advances sound).sound
  have middle_grows := resolveAll_grows sound' node.children
  have last_grows := resolveAll_grows middle_grows.sound otherNode.children
  refine ⟨_, middle_leads.trans last_leads, middle_grows.trans last_grows,
    related.imp_of_mem fun id twin listed listed' alike => ?_⟩
  have present := issued id listed
  obtain ⟨target, -, resolves⟩ : ∃ target, True ∧ Resolves (later.resolveAll node.children).state id target :=
    resolves_resolveAll sound' listed fun further onward => by
      obtain ⟨_, resolved, -⟩ := alike
      obtain ⟨found, ran⟩ := resolve_later sound (leads.trans onward) present resolved
      exact ⟨found, trivial, ran⟩
  obtain ⟨_, rfl, resolves'⟩ := resolves_resolveAll middle_grows.sound listed' fun further onward =>
    ⟨target, rfl, ResolveAlike.follows sound ((leads.trans middle_leads).trans onward) present alike
      (issued' twin listed') (resolves.later (onward.advances middle_grows.sound).grown)⟩
  exact ⟨_, resolves.later last_grows.grown, resolves'⟩

/-- Both checks end before one state: the first one is repeated where the second one has ended. -/
theorem exists_end (sound : one.state.Sound core) (along : one.Leads other)
    (present : first.index < one.state.arena.size) (decided : ¬ IsLimited (one.validateById value first).1)
    (decided' : ¬ IsLimited (other.validateById value second).1) :
    ∃ last before, other.Leads last ∧ one.state ≤ before ∧
      Answers core last.state (check one.options value first) before (one.validateById value first).1 ∧
      Answers core last.state (check one.options value second) other.state (other.validateById value second).1 := by
  have advances := along.advances sound
  let middle := (other.validateById value second).2
  have step : other.Leads middle := .single (.validateById other value second)
  have advances' := step.advances advances.sound
  have ran (validator : Validator) (same : validator.options = one.options) (id : SchemaId) :
      check one.options value id validator.state =
        ((validator.validateById value id).1, (validator.validateById value id).2.state) := by
    rw [← same]
    rfl
  have second_ran := ran other advances.options second
  have first_ran := ran middle (advances'.options.trans advances.options) first
  have grown := le_trans advances.grown advances'.grown
  have again := (check_outcome sound advances'.sound grown present).resolve_left decided
  have grows := (check_stable one.options value first middle.state advances'.sound).leaves
  refine ⟨(middle.validateById value first).2, middle.state, step.tail (.validateById middle value first), grown,
    ⟨advances'.sound, again.symm, ?_, decided⟩, ⟨advances.sound, by rw [second_ran], ?_, decided'⟩⟩
  · rw [first_ran] at grows ⊢
    exact .refl grows.sound
  · rw [first_ran] at grows
    rw [second_ran]
    exact grows

/-- What is compared when both checks have ended. -/
theorem checks_in_line (sound : validator.state.Sound core) {last : Validator} {before otherBefore : ResolverState}
    {answer otherAnswer : Except SchemaError Outcome}
    (found : validator.state.arena.get? first = some node)
    (found' : validator.state.arena.get? second = some otherNode)
    (related : Node.Related validator.ResolveAlike node otherNode) (leads : validator.Leads last)
    (grown : validator.state ≤ before) (grown' : validator.state ≤ otherBefore)
    (answers : Answers core last.state (check validator.options value first) before answer)
    (answers' : Answers core last.state (check validator.options value second) otherBefore otherAnswer) :
    SameUncircled answer otherAnswer ∨
      node.Combines ∧ (∃ error otherError, answer = .error error ∧ otherAnswer = .error otherError) ∧
        ∃ later, validator.Leads later ∧
          ∃ member ∈ node.children, later.Searched member first ∨ later.Searched member second := by
  obtain ⟨joined, leads', grows, related⟩ := exists_joined sound leads found found' related
  have extended {run : Run Outcome} {before : ResolverState} {answer : Except SchemaError Outcome}
      (answers : Answers core last.state run before answer) : Answers core joined.state run before answer :=
    ⟨answers.sound, answers.ran, answers.ends.trans grows, answers.decided⟩
  have path : validator.Leads joined := leads.trans leads'
  have options_eq : joined.options = validator.options := (path.advances sound).options
  have compared := checks_sameFate (ResolverState.get?_later found grown) (ResolverState.get?_later found' grown')
    related (extended answers) (extended answers')
  rcases compared with fate | ⟨combines, errors, back⟩
  · exact .inl fate.outcome
  let later := (joined.foreignFields first).2
  have searched : (Resolver.foreignFields validator.options.maxDepth first joined.state).2 = later.state := by
    rw [← options_eq]
    rfl
  have positive : 0 < later.options.maxDepth := by
    change 0 < joined.options.maxDepth
    rw [options_eq]
    refine Nat.pos_of_ne_zero fun none => ?_
    rw [check, checkLevels, none] at answers
    exact answers.unlimited rfl
  rw [searched] at back
  refine .inr ⟨combines, errors, later, path.tail (.foreignFields joined first), ?_⟩
  rcases back with ⟨member, listed, resolved, resolves, branches⟩ | ⟨member, listed, resolved, resolves, branches⟩
  · exact ⟨member, listed, .inl (searched_of_path positive resolves branches)⟩
  · exact ⟨member, listed, .inr (searched_of_path positive resolves branches)⟩

/-- Aliases are transparent: nodes of one constructor with equal data, whose children resolve alike, are
checked with the same outcome, whether a child is a chain of references or the node at its end.  Where a
cycle is noticed depends on where it has been entered, so the names in the errors about cycles may differ;
and a search for foreign fields that comes back to one of two unions or intersections meets another branch
first, so where both fail they may fail with errors of different branches. -/
theorem aliases_are_transparent (reachable : Reachable registry options validator)
    (found : validator.state.arena.get? first = some node)
    (found' : validator.state.arena.get? second = some otherNode)
    (related : Node.Related validator.ResolveAlike node otherNode) (leads : validator.Leads one)
    (leads' : validator.Leads other) (along : one.Leads other ∨ other.Leads one) (value : Value) :
    SameUncircled (one.validateById value first).1 (other.validateById value second).1 ∨
      node.Combines ∧ (∃ error otherError, (one.validateById value first).1 = .error error ∧
          (other.validateById value second).1 = .error otherError) ∧
        ∃ later, validator.Leads later ∧
          ∃ member ∈ node.children, later.Searched member first ∨ later.Searched member second := by
  have sound := reachable.sound
  have advances := leads.advances sound
  have advances' := leads'.advances sound
  by_cases decided : IsLimited (one.validateById value first).1
  · exact .inl (.inl decided)
  by_cases decided' : IsLimited (other.validateById value second).1
  · exact .inl (.inr (.inl decided'))
  rcases along with along | along
  · have present := Arena.index_lt_size (ResolverState.get?_later found advances.grown)
    obtain ⟨last, before, onward, grown, answers, answers'⟩ :=
      exists_end advances.sound along present decided decided'
    rw [advances.options] at answers answers'
    exact checks_in_line sound found found' related (leads'.trans onward) (le_trans advances.grown grown)
      advances'.grown answers answers'
  · have present := Arena.index_lt_size (ResolverState.get?_later found' advances'.grown)
    obtain ⟨last, before, onward, grown, answers', answers⟩ :=
      exists_end advances'.sound along present decided' decided
    rw [advances'.options] at answers answers'
    exact checks_in_line sound found found' related (leads.trans onward) advances.grown
      (le_trans advances'.grown grown) answers answers'

/-- An interface, an alias of it, and two interfaces that extend and mention the one and the other. -/
def renamed : Validator :=
  (Validator.ofRegistry ((Registry.empty.insert "m" "P" (.interface [⟨0, "a", false, .string⟩] none [])).insert
    "m" "Q" (.reference "m/P")) { maxDepth := 16 }).allocAll
      [.interface [⟨"x", true, ⟨3⟩⟩] none [⟨3⟩], .interface [⟨"x", true, ⟨4⟩⟩] none [⟨4⟩]]

theorem aliases_are_transparent_renamed :
    Node.Related renamed.ResolveAlike (.interface [⟨"x", true, ⟨3⟩⟩] none [⟨3⟩])
        (.interface [⟨"x", true, ⟨4⟩⟩] none [⟨4⟩]) ∧
      ∀ value, SameUncircled (renamed.validateById value ⟨5⟩).1 (renamed.validateById value ⟨6⟩).1 := by
  have reachable : Reachable _ { maxDepth := 16 } renamed := .allocAll .refl (by decide)
  have alike : renamed.ResolveAlike ⟨3⟩ ⟨4⟩ := ⟨⟨3⟩, by decide +kernel, by decide +kernel⟩
  have related : Node.Related renamed.ResolveAlike (.interface [⟨"x", true, ⟨3⟩⟩] none [⟨3⟩])
      (.interface [⟨"x", true, ⟨4⟩⟩] none [⟨4⟩]) := .interface (.cons ⟨rfl, rfl, alike⟩ .nil) .none (.cons alike .nil)
  refine ⟨related, fun value => ?_⟩
  exact (aliases_are_transparent reachable rfl rfl related .refl .refl (.inl .refl) value).resolve_right
    fun back => back.1

/-- Two references that refer to each other, and a third one. -/
def rings : Registry :=
  ((Registry.empty.insert "m" "A" (.reference "m/B")).insert "m" "B" (.reference "m/A")).insert "m" "C"
    (.reference "m/A")

/-- Two unions of the same references, one of which leads back to the first union. -/
def knotted : Registry :=
  let members : Schema := .union (Branch.numbered [.reference "m/X", .reference "m/P2"])
  let heir (name : String) : Schema := .interface [] none (Branch.numbered [.reference name])
  ((((Registry.empty.insert "m" "A" members).insert "m" "A2" members).insert "m" "P1" (heir "m/Missing1")).insert
    "m" "P2" (heir "m/Missing2")).insert "m" "X" (.union (Branch.numbered [.reference "m/A", .reference "m/P1"]))

/-- Equal references into one cycle name different links of it, and unions of the same members meet the
errors behind them in another order. -/
theorem entries_of_cycles_differ :
    (let validator := ofRegistry rings { maxDepth := 16 }
     Reachable rings { maxDepth := 16 } validator ∧
        validator.state.arena.get? ⟨3⟩ = some (.reference "m/A") ∧
        validator.state.arena.get? ⟨4⟩ = some (.reference "m/A") ∧
        Node.Related validator.ResolveAlike (.reference "m/A") (.reference "m/A") ∧
        (validator.validateById .null ⟨3⟩).1 = .error (.referenceCycle "m/A") ∧
        (validator.validateById .null ⟨4⟩).1 = .error (.referenceCycle "m/B")) ∧
      let validator := ofRegistry knotted { maxDepth := 16 }
      Reachable knotted { maxDepth := 16 } validator ∧
        validator.state.arena.get? ⟨4⟩ = some (.union [⟨2⟩, ⟨3⟩]) ∧
        validator.state.arena.get? ⟨7⟩ = some (.union [⟨5⟩, ⟨6⟩]) ∧
        Node.Related validator.ResolveAlike (.union [⟨2⟩, ⟨3⟩]) (.union [⟨5⟩, ⟨6⟩]) ∧
        (validator.validateById .null ⟨4⟩).1 = .error (.missingTarget "m/Missing1") ∧
        (validator.validateById .null ⟨7⟩).1 = .error (.missingTarget "m/Missing2") := by
  refine ⟨⟨.refl, by decide +kernel, by decide +kernel, .plain trivial, rfl, rfl⟩, .refl, by decide +kernel,
    by decide +kernel, ?_, rfl, rfl⟩
  exact .union (.cons ⟨⟨14⟩, by decide +kernel, by decide +kernel⟩
    (.cons ⟨⟨11⟩, by decide +kernel, by decide +kernel⟩ .nil))

end Conform.Validator
