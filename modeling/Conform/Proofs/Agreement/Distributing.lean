import Conform.Proofs.Agreement.Resolving
import Conform.Proofs.Resolver.Synthesis

/-! Distribution side by side.  Its nodes are added on the left one after the
other, each for the one that stands in its place on the right. -/

namespace Conform.Agreement

open Run Resolver

variable {core : Nat} {excuse : Prop} {world : World} {state : ResolverState}
  {id other origin target otherTarget : SchemaId} {chain otherChain : CombinatorChain}
  {members otherMembers tops otherTops : List SchemaId} {combinators otherCombinators : List Combinator}

/-- What is found at the end of a chain of combinators. -/
def FoundRelated (ids : SchemaId → SchemaId → Prop) :
    Option (CombinatorChain × List SchemaId) → Option (CombinatorChain × List SchemaId) → Prop :=
  Option.Rel fun found otherFound =>
    List.Forall₂ (Combinator.Related ids) found.1.toList otherFound.1.toList ∧
      List.Forall₂ ids found.2 otherFound.2

theorem walkChain_agrees {limit steps limit' steps' budget budget' : Nat} (linked : world.Linked core)
    (chains : List.Forall₂ (Combinator.Related world.ids) chain.toList otherChain.toList)
    (related : world.ids target otherTarget) :
    Agrees core (steps' < steps ∨ budget' < budget) world
      (walkChain limit (resolveWithin limit steps) budget chain target)
      (walkChain limit' (resolveWithin limit' steps') budget' otherChain otherTarget)
      fun found otherFound next => FoundRelated next.ids found otherFound := by
  induction budget generalizing budget' chain otherChain target otherTarget world with
  | zero => exact .out_of_steps limit
  | succ budget ih =>
      cases budget' with
      | zero =>
          exact .other_out_of_steps (.inr (Nat.succ_pos _)) limit'
      | succ budget' =>
          refine .bind (.weaken (resolveWithin_agrees limit steps limit' steps' world target
            otherTarget linked related) .inl) ?_
          rintro resolved otherResolved middle grown linked' pair
          refine .bind (.node linked' pair) ?_
          rintro node otherNode _ - - ⟨found, found', same, rfl⟩
          have chains' := chains.imp fun _ _ => Combinator.Related.imp grown.ids
          obtain ⟨here, -⟩ := List.forall₂_cons.mp chains'
          cases same with
          | union members => exact .pure linked' (.some ⟨chains', members⟩)
          | interface _ _ _ => exact .pure linked' .none
          | mapped combinators targets =>
              exact (ih linked' (.cons combinators chains') targets).weaken
                (.imp_right Nat.succ_lt_succ)
          | @plain node plain =>
              rw [here.kind]
              cases node <;> first | exact plain.elim | exact .fail
          | _ =>
              rw [here.kind]
              exact .fail

theorem applyCombinators_agrees {member otherMember otherTop : SchemaId} (linked : world.Linked core)
    (related : List.Forall₂ (Combinator.Related world.ids) combinators otherCombinators)
    (pair : world.ids member otherMember)
    (tower : Tower core world.right origin otherCombinators otherMember otherTop) :
    Agrees core False world (applyCombinators combinators member) (pure otherTop : Run SchemaId)
      fun top third next => next.ids top third ∧ third = otherTop := by
  induction combinators generalizing otherCombinators member otherMember world with
  | nil =>
      cases related
      cases tower
      exact .pure linked ⟨pair, rfl⟩
  | cons combinator outer ih =>
      obtain ⟨_, otherOuter, here, rest, rfl⟩ := List.forall₂_cons_left_iff.mp related
      cases tower with
      | apply node late behind tower =>
          have issued : ∀ child ∈ (Node.mapped combinator member).children,
              child.index < world.left.arena.size := by
            intro child listed
            rcases List.mem_cons.mp listed with rfl | listed
            · exact linked.present pair
            · cases here <;> cases listed
              · rename_i patches
                exact linked.present patches
              · rename_i listed
                cases listed
          refine .bind_left (.alloc linked node (.mapped here pair) issued
            ⟨late, _, node, .inl trivial⟩) ?_
          rintro applied _ _ grown linked' - ⟨-, rfl, rfl, pair'⟩
          exact ih linked' (rest.imp fun _ _ => Combinator.Related.imp grown.ids) pair' tower

theorem applyToEach_agrees (linked : world.Linked core)
    (related : List.Forall₂ (Combinator.Related world.ids) combinators otherCombinators)
    (pairs : List.Forall₂ world.ids members otherMembers)
    (towers : List.Forall₂ (Tower core world.right origin otherCombinators) otherMembers otherTops) :
    Agrees core False world (applyToEach combinators members) (pure otherTops : Run (List SchemaId))
      fun tops thirds next => List.Forall₂ next.ids tops thirds ∧ thirds = otherTops := by
  induction members generalizing otherMembers otherTops world with
  | nil =>
      cases pairs
      cases towers
      exact .pure linked ⟨.nil, rfl⟩
  | cons member rest ih =>
      obtain ⟨otherMember, otherRest, here, rest_pairs, rfl⟩ := List.forall₂_cons_left_iff.mp pairs
      obtain ⟨otherTop, restTops, tower, rest_towers, rfl⟩ := List.forall₂_cons_left_iff.mp towers
      refine .bind_left (applyCombinators_agrees linked related here tower) ?_
      rintro top _ middle grown linked' right ⟨pair, rfl⟩
      have related' := related.imp fun _ _ => Combinator.Related.imp grown.ids
      refine .bind_left (ih linked' related' (rest_pairs.imp grown.ids) (right ▸ rest_towers)) ?_
      rintro tops _ last grown' linked'' right' ⟨pairs', rfl⟩
      exact .pure linked'' ⟨.cons (grown'.ids _ _ pair) pairs', rfl⟩

theorem keepDistribution_agrees {union otherUnion : SchemaId} (linked : world.Linked core)
    (related : world.ids id other) (known : world.right.distributions.find? other = some otherUnion)
    (pair : world.ids union otherUnion) (accounted : DistributionSound core world.left id union)
    (fresh : ∀ other, world.left.distributions.find? other ≠ some union) :
    Agrees core excuse world (keepDistribution id union) (pure otherUnion : Run SchemaId)
      fun kept otherKept next => otherUnion = otherKept ∧ next.ids kept otherKept := by
  have kept_related : world.ids (world.left.distributions.settle id union).1 otherUnion := by
    cases earlier : world.left.distributions.find? id with
    | some found =>
        rw [Memo.settle_known earlier]
        obtain ⟨otherFound, known', same⟩ := linked.distributions id other found related earlier
        cases known.symm.trans known'
        exact same
    | none =>
        rw [Memo.settle_unknown earlier]
        exact pair
  let left := { world.left with distributions := (world.left.distributions.settle id union).2 }
  have grown : world.left ≤ left :=
    ⟨le_refl _, le_refl _, le_refl _, le_refl _, Memo.le_settle _ _ _⟩
  have linked' : (world.withLeft left).Linked core := by
    refine linked.grow grown (le_refl _) (linked.left.keepDistribution accounted fresh) linked.right
      rfl (fun _ _ shape _ found => .inl ⟨shape, found⟩) (fun _ _ _ _ found => .inl found)
      (fun key otherKey found pairs learned => ?_) (fun _ _ _ _ found => .inl found)
    rcases Memo.find?_settle_cases learned with earlier | ⟨rfl, rfl, _⟩
    · exact .inl earlier
    · cases linked.functional _ _ _ related pairs
      exact .inr ⟨otherUnion, known, pair⟩
  have ran : keepDistribution id union world.left = (.ok _, (world.withLeft left).left) := rfl
  exact .done ran rfl (.of_right grown rfl fun _ _ pairs => pairs) linked' ⟨rfl, kept_related⟩

theorem distributeTail_recalled {budget : Nat} {combinator : Combinator} {union : SchemaId}
    (linked : world.Linked core) (related : world.ids id other)
    (access : world.left.arena.get? id = some (.mapped combinator target))
    (walks : Walks world.left budget ⟨combinator, []⟩ target (some (chain, members)))
    (issued : Issued world.left chain.toList)
    (present : ∀ member ∈ members, member.index < world.left.arena.size)
    (chains : List.Forall₂ (Combinator.Related world.ids) chain.toList otherChain.toList)
    (pairs : List.Forall₂ world.ids members otherMembers)
    (known : world.right.distributions.find? other = some union)
    (node : world.right.arena.get? union = some (.union otherTops))
    (towers : List.Forall₂ (Tower core world.right other otherChain.toList) otherMembers otherTops) :
    Agrees core excuse world (distributeTail id chain.toList members)
      (pure (some union) : Run (Option SchemaId))
      fun kept otherKept next => Option.Rel next.ids kept otherKept := by
  have own := applyToEach_meets id linked.left issued present
    (Arena.index_lt_size access)
  refine .bind_left ((applyToEach_agrees linked chains pairs towers).and_left own) ?_
  rintro tops _ first grown linked₁ right₁ ⟨⟨top_pairs, rfl⟩, -, towers', tops_present⟩
  have late : core ≤ union.index := (linked.right.distributions _ _ known).late
  have synthetic : Synthetic core first.right union := by
    rw [right₁]
    exact ⟨late, _, node, .inr (.inr ⟨other, known⟩)⟩
  refine .bind_left (.alloc linked₁ (right₁ ▸ node : first.right.arena.get? union = _)
    (.union top_pairs) tops_present synthetic) ?_
  rintro _ _ _ grown' linked₂ - ⟨rfl, rfl, rfl, pair⟩
  have accounted := distribution_sound linked₁.left (ResolverState.get?_later access grown.left)
    (Lasts.later walks grown.left) towers'
  have known' : (first.alloc (.union tops) union).right.distributions.find? other = some union :=
    right₁ ▸ known
  refine .bind_left (keepDistribution_agrees linked₂
    (grown'.ids _ _ (grown.ids _ _ related)) known' pair accounted
    (distribution_fresh linked₁.left)) ?_
  rintro kept _ last - linked₃ - ⟨rfl, kept_pair⟩
  exact .pure linked₃ (.some kept_pair)

/-- Nodes are added without fail, and remembered. -/
theorem distributeTail_adds (id : SchemaId) (combinators : List Combinator) (members : List SchemaId)
    (state : ResolverState) : ∃ union arena distributions, distributeTail id combinators members state =
      (.ok (some union), { state with arena, distributions }) := by
  obtain ⟨tops, arena, ran, -⟩ := applyToEach_stacks combinators members state
  exact ⟨_, _, _, (bind_ok ran).trans ((bind_ok (alloc_apply _ _)).trans rfl)⟩

/-- The left run, where the right state remembers the distribution. -/
theorem distribute_recalled {limit steps : Nat} {union : SchemaId} (linked : world.Linked core)
    (related : world.ids id other) (known : world.right.distributions.find? other = some union) :
    Agrees core excuse world (distributeNode limit steps id)
      (pure (some union) : Run (Option SchemaId))
      fun kept otherKept next => Option.Rel next.ids kept otherKept := by
  obtain ⟨combinator', target', budget, chain', members', tops, found', walks', node, towers⟩ :=
    (linked.right.distributions _ _ known).computed
  obtain ⟨node', otherNode, found, found'', same⟩ := linked.nodes _ _ related
  cases found'.symm.trans found''
  refine .congr_left ?_ (bind_ok (node_apply found))
  cases same with
  | @plain _ plain => exact plain.elim
  | @mapped combinator _ target _ combinators targets =>
      have chains : List.Forall₂ (Combinator.Related world.ids)
          (CombinatorChain.mk combinator []).toList (CombinatorChain.mk combinator' []).toList :=
        .cons combinators .nil
      refine .bind_left (((walkChain_agrees linked chains targets).and_left (walkChain_meets limit steps limit linked.left
          (single_issued linked.left found))).settled walks'.now) ?_
      rintro answer _ middle grown linked' right ⟨rfl, -, walked, resolving, walks, issued⟩
      cases walked with
      | @some answer _ walked =>
          obtain ⟨chain, members⟩ := answer
          obtain ⟨combinators, present⟩ := issued chain members rfl
          rw [← right] at known node towers
          exact distributeTail_recalled linked' (grown.ids _ _ related)
            (ResolverState.get?_later found grown.left) (walks 0 0) combinators present walked.1
            walked.2 known node towers

theorem distributeBoth_agrees {budget budget' : Nat} {combinator otherCombinator : Combinator}
    (linked : world.Linked core) (related : world.ids id other)
    (access : world.left.arena.get? id = some (.mapped combinator target))
    (access' : world.right.arena.get? other = some (.mapped otherCombinator otherTarget))
    (walks : Walks world.left budget ⟨combinator, []⟩ target (some (chain, members)))
    (walks' : Walks world.right budget' ⟨otherCombinator, []⟩ otherTarget
      (some (otherChain, otherMembers)))
    (issued : Issued world.left chain.toList) (issued' : Issued world.right otherChain.toList)
    (present : ∀ member ∈ members, member.index < world.left.arena.size)
    (present' : ∀ member ∈ otherMembers, member.index < world.right.arena.size)
    (chains : List.Forall₂ (Combinator.Related world.ids) chain.toList otherChain.toList)
    (pairs : List.Forall₂ world.ids members otherMembers) :
    Agrees core excuse world (distributeTail id chain.toList members)
      (distributeTail other otherChain.toList otherMembers)
      fun kept otherKept next => Option.Rel next.ids kept otherKept := by
  obtain ⟨union, arena, distributions, ran⟩ :=
    distributeTail_adds other otherChain.toList otherMembers world.right
  have own := distributeTail_meets linked.right access' walks' issued' present'
  have grows := own.always_ok ran
  have known := own.answers _ _ ran
  refine .after_right linked ran grows.grown grows.sound rfl fun linked' => ?_
  obtain ⟨_, _, _, _, _, tops, found', walks'', node, towers⟩ :=
    (grows.sound.distributions _ _ known).computed
  cases (ResolverState.get?_later access' grows.grown).symm.trans found'
  cases Walks.unique (Lasts.later walks' grows.grown) walks''
  exact distributeTail_recalled linked' related access walks issued present chains pairs known node
    towers

theorem distributeNode_agrees {limit steps limit' steps' : Nat} (linked : world.Linked core)
    (related : world.ids id other) :
    Agrees core (steps' < steps ∨ limit' < limit) world (distributeNode limit steps id)
      (distributeNode limit' steps' other)
      fun kept otherKept next => Option.Rel next.ids kept otherKept := by
  refine .bind (.node linked related) ?_
  rintro node otherNode _ - - ⟨found, found', same, rfl⟩
  cases same with
  | @mapped combinator otherCombinator target otherTarget combinators targets =>
      have chains : List.Forall₂ (Combinator.Related world.ids)
          (CombinatorChain.mk combinator []).toList (CombinatorChain.mk otherCombinator []).toList :=
        .cons combinators .nil
      refine .bind (((walkChain_agrees linked chains targets).and_left (walkChain_meets limit steps limit
          linked.left (single_issued linked.left found))).and_right
        (walkChain_meets limit' steps' limit' linked.right (single_issued linked.right found'))) ?_
      rintro answer otherAnswer middle grown linked'
        ⟨⟨walked, -, walks, issued⟩, -, walks', issued'⟩
      cases walked with
      | none => exact .pure linked' .none
      | @some answer otherAnswer walked =>
          obtain ⟨chain, members⟩ := answer
          obtain ⟨otherChain, otherMembers⟩ := otherAnswer
          obtain ⟨combinators, present⟩ := issued chain members rfl
          obtain ⟨combinators', present'⟩ := issued' otherChain otherMembers rfl
          exact distributeBoth_agrees linked' (grown.ids _ _ related)
            (ResolverState.get?_later found grown.left)
            (ResolverState.get?_later found' grown.right) (walks 0 0) (walks' 0 0) combinators
            combinators' present present' walked.1 walked.2
  | @plain node plain => cases node <;> first | exact plain.elim | exact .pure linked .none
  | _ => exact .pure linked .none

theorem distributeWithin_agrees {limit steps limit' steps' : Nat} (linked : world.Linked core)
    (related : world.ids id other) :
    Agrees core (steps' < steps ∨ limit' < limit) world (distributeWithin limit steps id)
      (distributeWithin limit' steps' other)
      fun kept otherKept next => Option.Rel next.ids kept otherKept := by
  refine .bind (.read linked _ _) ?_
  rintro _ _ _ - - ⟨rfl, rfl, rfl⟩
  cases known : world.left.distributions.find? id with
  | some union =>
      obtain ⟨otherUnion, known', pair⟩ := linked.distributions _ _ _ related known
      simp only [known']
      exact .pure linked (.some pair)
  | none =>
      cases steps with
      | zero => exact .out_of_steps limit
      | succ steps =>
          cases known' : world.right.distributions.find? other with
          | some otherUnion => exact distribute_recalled linked related known'
          | none =>
              cases steps' with
              | zero =>
                  exact .other_out_of_steps (.inl (Nat.succ_pos _)) limit'
              | succ steps' =>
                  exact (distributeNode_agrees linked related).weaken (.imp_left Nat.succ_lt_succ)

end Conform.Agreement
