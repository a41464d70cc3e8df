import Conform.Proofs.Alias.Checking
import Conform.Proofs.Alias.Distributing
import Conform.Proofs.Alias.Foreign
import Conform.Proofs.Alias.Following

/-! Checks of nodes whose children resolve alike, one constructor after the other. -/

namespace Conform.Alias

open Run Resolver Agreement Distributed Validator

variable {core levels steps : Nat} {before otherBefore last : ResolverState} {id other : SchemaId}
  {members others : List SchemaId} {options : Options} {value : Value} {fields : ForeignFields}
  {answer otherAnswer : Except SchemaError Outcome}

section

variable (present : id.index < before.arena.size) (otherPresent : other.index < otherBefore.arena.size)

include present otherPresent

/-- Checks against shapes that are alike. -/
theorem flat_sameFate
    (shapes : ∀ result otherResult, FlattensTo last id result → FlattensTo last other otherResult →
      SameFate (Shape.Related (Alike last)) result otherResult)
    (answers : Answers core last (Resolver.flatten options.maxDepth id >>=
      checkFlat options (checkLevels options levels) value none) before answer)
    (answers' : Answers core last (Resolver.flatten options.maxDepth other >>=
      checkFlat options (checkLevels options levels) value none) otherBefore otherAnswer) :
    SameFate Eq answer otherAnswer := by
  have onward (shape : Shape) : Stable core (checkFlat options (checkLevels options levels) value none shape) :=
    checkFlat_stable (checkLevels_stable levels)
  refine .of_split answers answers' (flatten_stable _ id) (flatten_stable _ other) onward onward
    (fun _ _ flattens flattens' => shapes _ _ (flattensTo_of_answers present flattens)
      (flattensTo_of_answers otherPresent flattens')) ?_
  intro shape otherShape middle otherMiddle alike ran ran' grows grows' ends ends'
  have known := ((flattenWithin_meets _ _ [] id before answers.sound).answers _ _ ran).1
  have known' := ((flattenWithin_meets _ _ [] other otherBefore answers'.sound).answers _ _ ran').1
  have given : Shape.Related (Given middle otherMiddle last) shape otherShape :=
    alike.imp_of_mem fun type twin listed listed' alike =>
      ⟨alike, shape_issued grows.sound known type listed, shape_issued grows'.sound known' twin listed'⟩
  cases value with
  | object object =>
      exact (checkShape_across (matching core middle otherMiddle last) (parts_alike options levels _) given).2
        _ _ _ _ (le_refl middle) (le_refl otherMiddle) ends ends'
  | _ => exact .of_eq ((ends.ok_eq rfl).trans (ends'.ok_eq rfl).symm)

end

/-- What no union stands for is checked against its shape. -/
theorem undistributed_checks {node : Node} (found : before.arena.get? id = some node)
    (like : node.isInterfaceLike = true) (undistributed : Undistributed before id)
    (answers : Answers core last (checkWithin options (checkLevels options levels) value (steps + 1) id) before
      answer) :
    Answers core last (Resolver.flatten options.maxDepth id >>=
      checkFlat options (checkLevels options levels) value none) before answer := by
  have checks := answers.congr (checkWithin_like found like)
  rcases undistributed.again answers.sound options.maxDepth options.maxDepth with ran | ⟨_, limited⟩
  · exact checks.onward ran answers.sound
  · exact (checks.unlimited (bind_error limited)).elim

/-- Checks of interfaces with parts that resolve alike. -/
theorem interface_sameFate {properties otherProperties : List Property} {index otherIndex : Option IndexSignature}
    {parents otherParents : List SchemaId}
    (found : before.arena.get? id = some (.interface properties index parents))
    (found' : otherBefore.arena.get? other = some (.interface otherProperties otherIndex otherParents))
    (declared : List.Forall₂ (Property.Related (Alike last)) properties otherProperties)
    (signed : Option.Rel (IndexSignature.Related (Alike last)) index otherIndex)
    (joined : List.Forall₂ (Joins last) parents otherParents)
    (answers : Answers core last (checkWithin options (checkLevels options levels) value (steps + 1) id) before
      answer)
    (answers' : Answers core last (checkWithin options (checkLevels options levels) value (steps + 1) other)
      otherBefore otherAnswer) : SameFate Eq answer otherAnswer := by
  have stable (id : SchemaId) : Stable core
      (checkWithin options (checkLevels options levels) value (steps + 1) id) :=
    checkWithin_stable (checkLevels_stable levels) (steps + 1) id
  have grows := answers.grows (stable id)
  have grows' := answers'.grows (stable other)
  have same : SameStep last (Alike last) id other :=
    interfaces_same grows.sound (ResolverState.get?_later found grows.grown)
      (ResolverState.get?_later found' grows'.grown) declared signed joined
  exact flat_sameFate (Arena.index_lt_size found) (Arena.index_lt_size found')
    (fun _ _ flattens flattens' => same.sameFate grows.sound flattens flattens')
    (undistributed_checks found rfl (.interface found) answers)
    (undistributed_checks found' rfl (.interface found') answers')

/-- What the check of a combinator comes to, with what is found behind its target. -/
inductive MappedCheck (core : Nat) (last : ResolverState) (options : Options) (levels : Nat) (value : Value)
    (chain : CombinatorChain) (target id : SchemaId) (before : ResolverState)
    (answer : Except SchemaError Outcome) : Except SchemaError (Option (CombinatorChain × List SchemaId)) → Prop
  | failed {error : SchemaError} (same : answer = .error error) :
      MappedCheck core last options levels value chain target id before answer (.error error)
  | flat {middle : ResolverState} (grows : Grows core before middle)
      (checks : Answers core last (Resolver.flatten options.maxDepth id >>=
        checkFlat options (checkLevels options levels) value none) middle answer) :
      MappedCheck core last options levels value chain target id before answer (.ok none)
  | united {inner : CombinatorChain} {members : List SchemaId}
      (checks : Converges (unionAt last options levels value · inner members) answer) :
      MappedCheck core last options levels value chain target id before answer (.ok (some (inner, members)))

theorem MappedCheck.decided {chain : CombinatorChain} {target : SchemaId}
    {result : Except SchemaError (Option (CombinatorChain × List SchemaId))}
    (checks : MappedCheck core last options levels value chain target id before answer result)
    (decided : ¬ IsLimited answer) : ¬ IsLimited result := by
  rintro ⟨limit, rfl⟩
  cases checks with
  | failed same => exact decided ⟨limit, same⟩

theorem mapped_checks {combinator : Combinator} {target : SchemaId}
    (found : before.arena.get? id = some (.mapped combinator target))
    (answers : Answers core last (checkWithin options (checkLevels options levels) value (steps + 1) id) before
      answer) :
    ∃ result, Converges (walkAt last · ⟨combinator, []⟩ target) result ∧
      MappedCheck core last options levels value ⟨combinator, []⟩ target id before answer result := by
  have capped : Capped core before target [combinator] id := .apply found .base
  have chained : (CombinatorChain.mk combinator []).toList = [combinator].reverse := rfl
  have checks : Answers core last (checkInterfaceLike options (checkLevels options levels) value none
      (checkWithin options (checkLevels options levels) value steps) id) before answer :=
    answers.congr (checkWithin_like found rfl)
  have unfolds := Answers.unfolds capped chained ?stable checks
  case stable =>
    intro distributed
    cases distributed with
    | some union => exact checkWithin_stable (checkLevels_stable levels) steps union
    | none => exact .bind (flatten_stable _ _) fun _ => checkFlat_stable (checkLevels_stable levels)
  cases unfolds with
  | failed error same walks => exact ⟨_, walks, .failed same⟩
  | none middle grows walks onward => exact ⟨_, walks, .flat grows onward⟩
  | some middle union tops members inner grows known node stacked walks onward =>
      exact ⟨_, walks, .united (onward.checks node stacked (List.reverse_reverse _).symm)⟩

/-- Checks of one combinator on targets that resolve to one. -/
theorem combinator_sameFate {combinator otherCombinator : Combinator} {target otherTarget : SchemaId}
    (found : before.arena.get? id = some (.mapped combinator target))
    (found' : otherBefore.arena.get? other = some (.mapped otherCombinator otherTarget))
    (combinators : Combinator.Related (Joins last) combinator otherCombinator)
    (joined : Joins last target otherTarget)
    (answers : Answers core last (checkWithin options (checkLevels options levels) value (steps + 1) id) before
      answer)
    (answers' : Answers core last (checkWithin options (checkLevels options levels) value (steps + 1) other)
      otherBefore otherAnswer) : SameFate Eq answer otherAnswer := by
  have grows := answers.grows (checkWithin_stable (checkLevels_stable levels) (steps + 1) id)
  have grows' := answers'.grows (checkWithin_stable (checkLevels_stable levels) (steps + 1) other)
  have alike : CombinatorsAlike last (CombinatorChain.mk combinator []).toList
      (CombinatorChain.mk otherCombinator []).toList := .cons (combinators.imp fun _ _ => .inr) .nil
  obtain ⟨result, walks, checks⟩ := mapped_checks found answers
  obtain ⟨otherResult, walks', checks'⟩ := mapped_checks found' answers'
  have fate : SameFate (FoundAlike last) result otherResult :=
    .converged (walkAt_joined joined alike) walks walks'
  rcases fate.cases (checks.decided answers.decided) (checks'.decided answers'.decided) with
    ⟨error, otherError, rfl, rfl, same⟩ | ⟨found, otherFound, rfl, rfl, pair⟩
  · cases checks with
    | failed here =>
        cases checks' with
        | failed there =>
            subst here there
            exact .failed same
  · cases pair with
    | none =>
        cases checks with
        | flat grown flat =>
            cases checks' with
            | flat grown' flat' =>
                refine flat_sameFate ?_ ?_ (fun _ _ flattens flattens' => ?_) flat flat'
                · exact Arena.index_lt_size (ResolverState.get?_later found grown.grown)
                · exact Arena.index_lt_size (ResolverState.get?_later found' grown'.grown)
                · refine (mapped_sameFate grows.sound (ResolverState.get?_later found grows.grown)
                    (ResolverState.get?_later found' grows'.grown) combinators joined flattens flattens').imp ?_
                  rintro shape _ rfl
                  exact .refl fun _ _ => .inl rfl
    | @some found otherFound pair =>
        obtain ⟨inner, members⟩ := found
        obtain ⟨otherInner, others⟩ := otherFound
        obtain ⟨alike, same⟩ := pair
        cases same
        cases checks with
        | united converges =>
            cases checks' with
            | united converges' =>
                exact .converged (fun fuel => unionAt_sameFate grows.sound alike (fuel + 1) members) converges
                  converges'

/-- Checks of members with the same foreign fields. -/
theorem members_sameFate {checkMembers : ForeignFields → List SchemaId → Run Outcome}
    (stable : ∀ fields ids, Stable core (checkMembers fields ids))
    (across : ∀ fields middle otherMiddle, List.Forall₂ (Given middle otherMiddle last) members others →
      Matches core middle otherMiddle last Eq (checkMembers fields members) (checkMembers fields others))
    (siblings : Siblings last id other members others)
    (issued : ∀ member ∈ members, member.index < before.arena.size)
    (otherIssued : ∀ member ∈ others, member.index < otherBefore.arena.size)
    (foreign : ∀ result otherResult, Answers core last (foreignFields options.maxDepth id) before result →
      Answers core last (foreignFields options.maxDepth other) otherBefore otherResult →
      SameFate Eq result otherResult)
    (answers : Answers core last (foreignFields options.maxDepth id >>= (checkMembers · members)) before answer)
    (answers' : Answers core last (foreignFields options.maxDepth other >>= (checkMembers · others)) otherBefore
      otherAnswer) : SameFate Eq answer otherAnswer := by
  refine .of_split answers answers' (foreignFields_stable _ id) (foreignFields_stable _ other) (stable · members)
    (stable · others) foreign ?_
  rintro fields _ middle otherMiddle rfl - - grows grows' ends ends'
  have given : List.Forall₂ (Given middle otherMiddle last) members others :=
    imp_of_mem siblings.alike fun member twin listed listed' alike =>
      ⟨alike, Nat.lt_of_lt_of_le (issued member listed) (ResolverState.size_mono grows.grown),
        Nat.lt_of_lt_of_le (otherIssued twin listed') (ResolverState.size_mono grows'.grown)⟩
  exact across fields middle otherMiddle given _ _ _ _ (le_refl middle) (le_refl otherMiddle) ends ends'

/-- Checks of members that resolve alike, unless a search for foreign fields comes back. -/
theorem siblings_sameFate {checkMembers : ForeignFields → List SchemaId → Run Outcome}
    (stable : ∀ fields ids, Stable core (checkMembers fields ids))
    (across : ∀ fields middle otherMiddle, List.Forall₂ (Given middle otherMiddle last) members others →
      Matches core middle otherMiddle last Eq (checkMembers fields members) (checkMembers fields others))
    (siblings : Siblings last id other members others)
    (present : id.index < before.arena.size) (otherPresent : other.index < otherBefore.arena.size)
    (issued : ∀ member ∈ members, member.index < before.arena.size)
    (otherIssued : ∀ member ∈ others, member.index < otherBefore.arena.size)
    (answers : Answers core last (foreignFields options.maxDepth id >>= (checkMembers · members)) before answer)
    (answers' : Answers core last (foreignFields options.maxDepth other >>= (checkMembers · others)) otherBefore
      otherAnswer) :
    SameFate Eq answer otherAnswer ∨
      (∃ error otherError, answer = .error error ∧ otherAnswer = .error otherError) ∧
        (LeadsTo (foreignFields options.maxDepth id last).2 members id ∨
          LeadsTo (foreignFields options.maxDepth id last).2 members other) := by
  refine or_iff_not_imp_right.mpr fun onward => members_sameFate stable across siblings issued otherIssued
    (fun result otherResult here there => ?_) answers answers'
  refine (siblings.sameFate present otherPresent here there).resolve_right ?_
  rintro ⟨⟨error, otherError, rfl, rfl⟩, back⟩
  have fails := answers.error_eq (bind_error (Prod.ext here.ran rfl))
  have fails' := answers'.error_eq (bind_error (Prod.ext there.ran rfl))
  exact onward ⟨⟨error, otherError, fails, fails'⟩, back⟩

section

variable (options : Options) (levels steps : Nat) (value : Value)

theorem checkAny_members (fields : ForeignFields) (middle otherMiddle : ResolverState)
    (given : List.Forall₂ (Given middle otherMiddle last) members others) :
    Matches core middle otherMiddle last Eq
      (checkAny (checkMemberWithin options (checkLevels options levels) value steps fields) [] members)
      (checkAny (checkMemberWithin options (checkLevels options levels) value steps fields) [] others) :=
  (checkAny_across (matching core middle otherMiddle last) [] given fun _ _ =>
    members_alike options levels steps steps value fields).2

theorem checkAll_members (fields : ForeignFields) (middle otherMiddle : ResolverState)
    (given : List.Forall₂ (Given middle otherMiddle last) members others) :
    Matches core middle otherMiddle last Eq
      (checkAll (checkMemberWithin options (checkLevels options levels) value steps fields) 0 members)
      (checkAll (checkMemberWithin options (checkLevels options levels) value steps fields) 0 others) :=
  (checkAll_across (matching core middle otherMiddle last) 0 given fun _ _ =>
    members_alike options levels steps steps value fields).2

theorem checkAny_members_stable (fields : ForeignFields) (ids : List SchemaId) :
    Stable core (checkAny (checkMemberWithin options (checkLevels options levels) value steps fields) [] ids) :=
  checkAny_stable (checkMemberWithin_stable (checkLevels_stable levels) steps fields) [] ids

theorem checkAll_members_stable (fields : ForeignFields) (ids : List SchemaId) :
    Stable core (checkAll (checkMemberWithin options (checkLevels options levels) value steps fields) 0 ids) :=
  checkAll_stable (checkMemberWithin_stable (checkLevels_stable levels) steps fields) 0 ids

end

/-- Checks of unions that stand for one optional property. -/
theorem optional_checks {type : SchemaId} (found : before.arena.get? id = some (.union [type, Arena.undefined]))
    (found' : otherBefore.arena.get? other = some (.union [type, Arena.undefined]))
    (answers : Answers core last (checkWithin options (checkLevels options levels) value steps id) before answer)
    (answers' : Answers core last (checkWithin options (checkLevels options levels) value steps other) otherBefore
      otherAnswer) : SameFate Eq answer otherAnswer := by
  cases steps with
  | zero => exact (answers.unlimited rfl).elim
  | succ steps =>
      have grows := answers.grows (checkWithin_stable (checkLevels_stable levels) (steps + 1) id)
      have grows' := answers'.grows (checkWithin_stable (checkLevels_stable levels) (steps + 1) other)
      have later := ResolverState.get?_later found grows.grown
      have later' := ResolverState.get?_later found' grows'.grown
      have siblings : Siblings last id other [type, Arena.undefined] [type, Arena.undefined] :=
        ⟨⟨_, later, .inl rfl⟩, ⟨_, later', .inl rfl⟩, alike_refl last _⟩
      exact members_sameFate (checkAny_members_stable options levels steps value)
        (checkAny_members options levels steps value) siblings (children_issued answers.sound found)
        (children_issued answers'.sound found')
        (fun _ _ => optional_sameFate later later' (Arena.index_lt_size found) (Arena.index_lt_size found'))
        (answers.node found) (answers'.node found')

/-- Checks behind links that lead to twins. -/
theorem links_sameFate
    (ends : ∀ result otherResult, Answers core last (Resolver.resolve options.maxDepth id) before result →
      Answers core last (Resolver.resolve options.maxDepth other) otherBefore otherResult →
      SameFate (Twin last) result otherResult)
    (answers : Answers core last (Resolver.resolve options.maxDepth id >>=
      checkWithin options (checkLevels options levels) value steps) before answer)
    (answers' : Answers core last (Resolver.resolve options.maxDepth other >>=
      checkWithin options (checkLevels options levels) value steps) otherBefore otherAnswer) :
    SameFate Eq answer otherAnswer := by
  have stable (id : SchemaId) : Stable core (checkWithin options (checkLevels options levels) value steps id) :=
    checkWithin_stable (checkLevels_stable levels) steps id
  refine .of_split answers answers' (resolveWithin_stable _ _ id) (resolveWithin_stable _ _ other) stable stable
    ends ?_
  rintro target otherTarget middle otherMiddle twin ran ran' - - checks checks'
  obtain ⟨-, ⟨node, found, -⟩, -⟩ := (resolveWithin_meets _ _ id before answers.sound).answers _ _ ran
  obtain ⟨-, ⟨node', found', -⟩, -⟩ :=
    (resolveWithin_meets _ _ other otherBefore answers'.sound).answers _ _ ran'
  rcases twin with rfl | ⟨type, here, there⟩
  · exact .of_eq ((checkedAt_of_answers (Arena.index_lt_size found) checks).unique
      (checkedAt_of_answers (Arena.index_lt_size found') checks'))
  · cases (ResolverState.get?_later found (checks.grows (stable target)).grown).symm.trans here
    cases (ResolverState.get?_later found' (checks'.grows (stable otherTarget)).grown).symm.trans there
    exact optional_checks found found' checks checks'

/-- Checks of nodes whose children resolve alike have the same fate, unless a search for the foreign fields
of one comes back to one of them. -/
theorem checks_sameFate {node otherNode : Node} (found : before.arena.get? id = some node)
    (found' : otherBefore.arena.get? other = some otherNode)
    (related : Node.Related (Joins last) node otherNode)
    (answers : Answers core last (checkWithin options (checkLevels options levels) value steps id) before answer)
    (answers' : Answers core last (checkWithin options (checkLevels options levels) value steps other) otherBefore
      otherAnswer) :
    SameFate Eq answer otherAnswer ∨
      node.Combines ∧ (∃ error otherError, answer = .error error ∧ otherAnswer = .error otherError) ∧
        (LeadsTo (foreignFields options.maxDepth id last).2 node.children id ∨
          LeadsTo (foreignFields options.maxDepth id last).2 node.children other) := by
  cases steps with
  | zero => exact (answers.unlimited rfl).elim
  | succ steps =>
  have grows := answers.grows (checkWithin_stable (checkLevels_stable levels) (steps + 1) id)
  have grows' := answers'.grows (checkWithin_stable (checkLevels_stable levels) (steps + 1) other)
  have later := ResolverState.get?_later found grows.grown
  have later' := ResolverState.get?_later found' grows'.grown
  have present := Arena.index_lt_size found
  have present' := Arena.index_lt_size found'
  have issued := children_issued answers.sound found
  have issued' := children_issued answers'.sound found'
  have body := answers.node found
  have body' := answers'.node found'
  cases related with
  | plain plain =>
      cases node with
      | reference target =>
          refine .inl (links_sameFate (fun result otherResult ends ends' => ?_) body body')
          exact (references_sameFate later later' (resolve_comes present ends) (resolve_comes present' ends')).imp
            fun _ _ => .inl
      | array _ | tuple _ _ | indexedAccess _ _ | union _ | intersection _ | interface _ _ _ | mapped _ _ =>
          exact plain.elim
      | _ => exact .inl (.of_eq ((body.ok_eq rfl).trans (body'.ok_eq rfl).symm))
  | @array element otherElement elements =>
      have given : Given before otherBefore last element otherElement :=
        ⟨.inr elements, issued _ (List.mem_singleton_self _), issued' _ (List.mem_singleton_self _)⟩
      exact .inl ((checkArray_across (matching core before otherBefore last) (parts_alike options levels _)
        given).2 _ _ _ _ (le_refl before) (le_refl otherBefore) body body')
  | @tuple elements otherElements elementwise start =>
      have given : List.Forall₂ (Given before otherBefore last) elements otherElements :=
        imp_of_mem elementwise fun _ _ listed listed' joins => ⟨.inr joins, issued _ listed, issued' _ listed'⟩
      exact .inl ((checkTuple_across (matching core before otherBefore last) start (parts_alike options levels _)
        given).2 _ _ _ _ (le_refl before) (le_refl otherBefore) body body')
  | interface declared signed inherited =>
      exact .inl (interface_sameFate found found' (declared.imp fun _ _ => Property.Related.imp fun _ _ => .inr)
        (IndexSignature.Related.rel_imp (fun _ _ => .inr) signed) inherited answers answers')
  | indexedAccess objects index =>
      obtain ⟨target, resolves, resolves'⟩ := objects
      exact .inl (links_sameFate (fun _ _ ends ends' =>
        accesses_sameFate resolves resolves' later later' present present' ends ends') body body')
  | @union members others memberwise =>
      have siblings : Siblings last id other members others :=
        ⟨⟨_, later, .inl rfl⟩, ⟨_, later', .inl rfl⟩, memberwise.imp fun _ _ => .inr⟩
      exact (siblings_sameFate (checkAny_members_stable options levels steps value)
        (checkAny_members options levels steps value) siblings present present' issued issued' body
        body').imp_right (And.intro trivial)
  | @intersection members others memberwise =>
      have siblings : Siblings last id other members others :=
        ⟨⟨_, later, .inr rfl⟩, ⟨_, later', .inr rfl⟩, memberwise.imp fun _ _ => .inr⟩
      exact (siblings_sameFate (checkAll_members_stable options levels steps value)
        (checkAll_members options levels steps value) siblings present present' issued issued' body
        body').imp_right (And.intro trivial)
  | mapped combinators targets => exact .inl (combinator_sameFate found found' combinators targets answers answers')

end Conform.Alias
