import Conform.Proofs.Resolver.Resolving

/-! Distribution keeps a state sound.  The combinators that it applies are those
that it met on the way down, so the nodes it adds mention issued identities
only. -/

namespace Conform.Resolver

open Run

variable {core : Nat} {state before middle after : ResolverState}
  {id origin target member top : SchemaId} {combinators : List Combinator}

theorem ResolverState.size_mono (grown : before ≤ after) : before.arena.size ≤ after.arena.size :=
  Arena.size_mono (ResolverState.arena_le grown)

/-- What every operation does to a state.  The unions that it distributes
combinators to are new. -/
structure Grows (core : Nat) (before after : ResolverState) : Prop where
  grown : before ≤ after
  sound : after.Sound core
  fresh : ∀ origin union, after.distributions.find? origin = some union →
    before.distributions.find? origin = some union ∨ before.arena.size ≤ union.index

theorem Grows.refl (sound : state.Sound core) : Grows core state state :=
  ⟨le_refl _, sound, fun _ _ known => .inl known⟩

theorem Grows.trans (first : Grows core before middle) (second : Grows core middle after) :
    Grows core before after := by
  refine ⟨le_trans first.grown second.grown, second.sound, fun origin union known => ?_⟩
  rcases second.fresh origin union known with earlier | late
  · exact first.fresh origin union earlier
  · exact .inr (Nat.le_trans (ResolverState.size_mono first.grown) late)

theorem Resolving.grows (resolving : Resolving core before after) : Grows core before after :=
  ⟨resolving.grown, resolving.sound, fun _ _ known => .inl (resolving.distributions ▸ known)⟩

/-- Every identity in the combinators is issued. -/
def Issued (state : ResolverState) (combinators : List Combinator) : Prop :=
  ∀ combinator ∈ combinators, ∀ patch ∈ combinator.children, patch.index < state.arena.size

theorem Issued.later (issued : Issued before combinators) (grown : before ≤ after) :
    Issued after combinators :=
  fun combinator listed patch inside =>
    Nat.lt_of_lt_of_le (issued combinator listed patch inside) (ResolverState.size_mono grown)

theorem children_issued (sound : state.Sound core) {node : Node}
    (found : state.arena.get? id = some node) :
    ∀ child ∈ node.children, child.index < state.arena.size :=
  fun child inside =>
    Nat.lt_trans (sound.ordered id node found child inside) (Arena.index_lt_size found)

theorem single_issued (sound : state.Sound core) {combinator : Combinator}
    (found : state.arena.get? id = some (.mapped combinator target)) :
    Issued state (CombinatorChain.mk combinator []).toList := by
  intro other listed patch inside
  cases List.mem_singleton.mp listed
  exact children_issued sound found patch (List.mem_cons_of_mem _ inside)

theorem walkChain_meets (limit steps budget : Nat) {chain : CombinatorChain}
    (sound : state.Sound core) (issued : Issued state chain.toList) :
    Meets (walkChain limit (resolveWithin limit steps) budget chain target) state
      (Resolving core state) fun found after =>
        (∀ limit steps, Lasts (walkChain limit (resolveWithin limit (steps + 1)) budget chain target)
          after found) ∧
        ∀ whole members, found = some (whole, members) → Issued after whole.toList ∧
          ∀ member ∈ members, member.index < after.arena.size := by
  induction budget generalizing chain target state with
  | zero => exact .fail (.refl sound)
  | succ budget ih =>
      refine .bind (resolveWithin_meets limit steps target state sound) ?_
      intro resolved middle resolving post
      obtain ⟨resolves, _, _⟩ := post
      refine .bind (.node resolved resolving) ?_
      rintro node _ - ⟨found, rfl⟩
      cases node with
      | union members =>
          refine .pure resolving ⟨fun limit steps => ?_, fun whole listed same => ?_⟩
          · exact .bind (resolves.lasts limit steps) (.bind (.node found) .pure)
          · cases same
            exact ⟨issued.later resolving.grown, children_issued resolving.sound found⟩
      | interface properties index parents =>
          refine .pure resolving ⟨fun limit steps => ?_, fun _ _ same => by cases same⟩
          exact .bind (resolves.lasts limit steps) (.bind (.node found) .pure)
      | mapped combinator inner =>
          have pushed : Issued middle (chain.push combinator).toList := by
            intro other listed patch inside
            rcases List.mem_cons.mp listed with rfl | listed
            · exact children_issued resolving.sound found patch (List.mem_cons_of_mem _ inside)
            · exact issued.later resolving.grown other listed patch inside
          refine (ih resolving.sound pushed).imp (fun _ => resolving.trans) ?_
          intro answer later grown post
          obtain ⟨rest, present⟩ := post
          refine ⟨fun limit steps => ?_, present⟩
          exact .bind ((resolves.lasts limit steps).later grown.grown)
            (.bind (.node (ResolverState.get?_later found grown.grown)) (rest limit steps))
      | _ => exact .fail resolving

theorem Grows.alloc (sound : state.Sound core) (node : Node)
    (issued : ∀ child ∈ node.children, child.index < state.arena.size) :
    Grows core state { state with arena := (state.arena.alloc node).2 } :=
  ⟨le_alloc _ _, sound.alloc issued, fun _ _ known => .inl known⟩

theorem alloc_meets {always : ResolverState → Prop} (node : Node)
    (leaves : always { state with arena := (state.arena.alloc node).2 }) :
    Meets (Run.alloc node) state always fun id after =>
      id = ⟨state.arena.size⟩ ∧ { state with arena := (state.arena.alloc node).2 } = after :=
  .of_ok (alloc_apply _ _) leaves ⟨rfl, rfl⟩

theorem applyCombinators_meets (origin : SchemaId) (sound : state.Sound core) (issued : Issued state combinators)
    (present : target.index < state.arena.size) (behind : origin.index < state.arena.size) :
    Meets (applyCombinators combinators target) state (Grows core state) fun top after =>
      Tower core after origin combinators target top ∧ top.index < after.arena.size := by
  induction combinators generalizing target state with
  | nil => exact .pure (.refl sound) ⟨.base, present⟩
  | cons combinator outer ih =>
      have grows : Grows core state
          { state with arena := (state.arena.alloc (.mapped combinator target)).2 } := by
        refine .alloc sound _ fun child inside => ?_
        rcases List.mem_cons.mp inside with rfl | inside
        · exact present
        · exact issued combinator (List.mem_cons_self ..) child inside
      have size := Arena.size_alloc state.arena (.mapped combinator target)
      refine .bind (alloc_meets _ grows) ?_
      rintro _ _ - ⟨rfl, rfl⟩
      have issued' := fun other listed => issued.later grows.grown other (List.mem_cons_of_mem _ listed)
      refine .imp (ih grows.sound issued' (by rw [size]; exact Nat.lt_succ_self _)
        (by rw [size]; exact Nat.lt_succ_of_lt behind)) (fun _ => grows.trans) ?_
      refine fun top after grown ⟨tower, issued⟩ => ⟨?_, issued⟩
      exact .apply (ResolverState.get?_later (Arena.get?_alloc_self _ _) grown.grown)
        sound.core_le behind tower

theorem applyToEach_meets (origin : SchemaId) (sound : state.Sound core) (issued : Issued state combinators)
    {members : List SchemaId} (present : ∀ member ∈ members, member.index < state.arena.size)
    (behind : origin.index < state.arena.size) :
    Meets (applyToEach combinators members) state (Grows core state) fun tops after =>
      List.Forall₂ (Tower core after origin combinators) members tops ∧
        ∀ top ∈ tops, top.index < after.arena.size := by
  induction members generalizing state with
  | nil => exact .pure (.refl sound) ⟨.nil, fun _ listed => by cases listed⟩
  | cons member rest ih =>
      refine .bind (applyCombinators_meets origin sound issued
        (present member (List.mem_cons_self ..)) behind) ?_
      intro top middle grows post
      obtain ⟨tower, top_present⟩ := post
      have wider := ResolverState.size_mono grows.grown
      refine .bind ((ih grows.sound (issued.later grows.grown)
        (fun other listed => Nat.lt_of_lt_of_le (present other (List.mem_cons_of_mem _ listed)) wider)
        (Nat.lt_of_lt_of_le behind wider)).keep fun _ => grows.trans) ?_
      intro tops after grown post
      obtain ⟨last, towers, tops_present⟩ := post
      refine .pure grown ⟨.cons (tower.later last.grown) towers, fun other listed => ?_⟩
      rcases List.mem_cons.mp listed with rfl | listed
      · exact Nat.lt_of_lt_of_le top_present (ResolverState.size_mono last.grown)
      · exact tops_present other listed

theorem distribution_present (sound : state.Sound core) {union : SchemaId}
    (known : state.distributions.find? id = some union) : union.index < state.arena.size := by
  obtain ⟨_, node⟩ := sound.union_of_distribution known
  exact Arena.index_lt_size node

/-- The union over the towers, as it is added. -/
theorem distribution_sound {budget : Nat} {combinator : Combinator} {chain : CombinatorChain}
    {members tops : List SchemaId} (sound : state.Sound core)
    (access : state.arena.get? id = some (.mapped combinator target))
    (walks : Walks state budget ⟨combinator, []⟩ target (some (chain, members)))
    (towers : List.Forall₂ (Tower core state id chain.toList) members tops) :
    DistributionSound core { state with arena := (state.arena.alloc (.union tops)).2 } id
      ⟨state.arena.size⟩ := by
  have grown := le_alloc (.union tops) state
  exact ⟨Arena.index_lt_size access, sound.core_le, combinator, target, budget, chain, members, tops,
    ResolverState.get?_later access grown, Lasts.later walks grown, Arena.get?_alloc_self _ _,
    towers.imp fun _ _ tower => tower.later grown⟩

theorem distribution_fresh (sound : state.Sound core) (other : SchemaId) :
    state.distributions.find? other ≠ some ⟨state.arena.size⟩ :=
  fun known => Nat.lt_irrefl _ (distribution_present sound known)

/-- The node's distribution is worked out: the answer says what it is. -/
def Distributes (state : ResolverState) (id : SchemaId) : Option SchemaId → Prop
  | some union => state.distributions.find? id = some union
  | none => ∀ node, state.arena.get? id = some node → node.isInterfaceLike = true →
      Undistributed state id

theorem addUnion_meets {budget : Nat} {combinator : Combinator} {chain : CombinatorChain}
    {members tops : List SchemaId} (sound : state.Sound core)
    (access : state.arena.get? id = some (.mapped combinator target))
    (walks : Walks state budget ⟨combinator, []⟩ target (some (chain, members)))
    (towers : List.Forall₂ (Tower core state id chain.toList) members tops)
    (present : ∀ top ∈ tops, top.index < state.arena.size) :
    Meets (do
        let union ← Run.alloc (.union tops)
        return some (← Run.keepDistribution id union)) state (Grows core state)
      fun union after => Distributes after id union := by
  let added := { state with arena := (state.arena.alloc (.union tops)).2 }
  let kept := added.distributions.settle id ⟨state.arena.size⟩
  have ran : (do
      let union ← Run.alloc (.union tops)
      return some (← Run.keepDistribution id union)) state =
        (.ok (some kept.1), { added with distributions := kept.2 }) := rfl
  have grows := Grows.alloc sound (.union tops) present
  have remembered : added ≤ { added with distributions := kept.2 } :=
    ⟨le_refl _, le_refl _, le_refl _, le_refl _, Memo.le_settle _ _ _⟩
  refine .of_ok ran ⟨le_trans grows.grown remembered, grows.sound.keepDistribution
    (distribution_sound sound access walks towers) (distribution_fresh sound), ?_⟩
    (Memo.find?_settle _ _ _)
  intro origin union known
  rcases Memo.find?_settle_cases known with earlier | ⟨-, rfl, -⟩
  · exact .inl earlier
  · exact .inr (Nat.le_refl _)

/-- The nodes of a distribution are added, and it is remembered. -/
def distributeTail (id : SchemaId) (combinators : List Combinator) (members : List SchemaId) :
    Run (Option SchemaId) := do
  let distributed ← applyToEach combinators members
  let union ← Run.alloc (.union distributed)
  return some (← Run.keepDistribution id union)

theorem distributeTail_meets {budget : Nat} {combinator : Combinator} {chain : CombinatorChain}
    {members : List SchemaId} (sound : state.Sound core)
    (access : state.arena.get? id = some (.mapped combinator target))
    (walks : Walks state budget ⟨combinator, []⟩ target (some (chain, members)))
    (issued : Issued state chain.toList)
    (present : ∀ member ∈ members, member.index < state.arena.size) :
    Meets (distributeTail id chain.toList members) state (Grows core state) fun union after =>
      Distributes after id union := by
  refine .bind ((applyToEach_meets id sound issued present
    (Arena.index_lt_size access)).keep fun _ grown => grown) ?_
  intro distributed applied grown post
  obtain ⟨last, towers, tops⟩ := post
  exact (addUnion_meets last.sound (ResolverState.get?_later access last.grown)
    (Lasts.later walks last.grown) towers tops).imp (fun _ => grown.trans) fun _ _ _ known => known

theorem distributeNode_meets (limit steps : Nat) (sound : state.Sound core) :
    Meets (distributeNode limit steps id) state (Grows core state) fun union after =>
      Distributes after id union := by
  have stays := Grows.refl sound
  refine .bind (.node id stays) ?_
  rintro node _ - ⟨found, rfl⟩
  cases node with
  | mapped combinator target =>
      refine .bind ((walkChain_meets limit _ limit sound (single_issued sound found)).keep fun _ => Resolving.grows) ?_
      intro answer middle grows post
      obtain ⟨_, walks, issued⟩ := post
      have access := ResolverState.get?_later found grows.grown
      cases answer with
      | none =>
          refine .pure grows fun _ _ _ => ?_
          exact .mapped access (walks 0 0)
      | some answer =>
          obtain ⟨chain, members⟩ := answer
          obtain ⟨combinators, present⟩ := issued chain members rfl
          exact (distributeTail_meets grows.sound access (walks 0 0) combinators present).imp
            (fun _ => grows.trans) fun _ _ _ distributes => distributes
  | interface properties index parents => exact .pure stays fun _ _ _ => .interface found
  | _ =>
      refine .pure stays fun node found' like => ?_
      cases found.symm.trans found'
      cases like

theorem distributeWithin_meets (limit steps : Nat) (sound : state.Sound core) :
    Meets (distributeWithin limit steps id) state (Grows core state) fun union after =>
      Distributes after id union := by
  have stays := Grows.refl sound
  refine .bind (.read _ stays) ?_
  rintro _ _ - ⟨rfl, rfl⟩
  cases known : state.distributions.find? id with
  | some union => exact .pure stays known
  | none =>
      cases steps with
      | zero => exact .fail stays
      | succ steps => exact distributeNode_meets limit steps sound

end Conform.Resolver
