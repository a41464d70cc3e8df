import Conform.Proofs.Agreement.World

/-! Runs side by side.  The left run reaches its limit, or both runs fail with
the same error, or both give answers that are related in the world they leave.
Only with an excuse may the right run reach its limit instead. -/

namespace Conform.Agreement

open Run

variable {core : Nat} {excuse : Prop} {world : World} {α β γ δ : Type}

inductive Agrees (core : Nat) (excuse : Prop) (world : World) (first : Run α) (second : Run β)
    (post : α → β → World → Prop) : Prop
  | limited {limit : Nat} {after : ResolverState}
      (ran : first world.left = (.error (.depthLimitExceeded limit), after)) :
      Agrees core excuse world first second post
  | excused (excused : excuse) {limit : Nat} {after : ResolverState}
      (ran : second world.right = (.error (.depthLimitExceeded limit), after)) :
      Agrees core excuse world first second post
  | failed {error : SchemaError} {after other : ResolverState}
      (ran : first world.left = (.error error, after))
      (ran' : second world.right = (.error error, other)) :
      Agrees core excuse world first second post
  | done {answer : α} {otherAnswer : β} {next : World}
      (ran : first world.left = (.ok answer, next.left))
      (ran' : second world.right = (.ok otherAnswer, next.right))
      (grown : world.Extends next) (linked : next.Linked core)
      (related : post answer otherAnswer next) :
      Agrees core excuse world first second post

namespace Agrees

variable {first : Run α} {second : Run β} {next : α → Run γ} {nextOther : β → Run δ}
  {post wider : α → β → World → Prop} {goal : γ → δ → World → Prop} {answer : α} {otherAnswer : β}

theorem imp (agrees : Agrees core excuse world first second post)
    (into : ∀ answer otherAnswer next, world.Extends next → next.Linked core →
      post answer otherAnswer next → wider answer otherAnswer next) :
    Agrees core excuse world first second wider := by
  cases agrees with
  | limited ran => exact .limited ran
  | excused excused ran => exact .excused excused ran
  | failed ran ran' => exact .failed ran ran'
  | done ran ran' grown linked related =>
      exact .done ran ran' grown linked (into _ _ _ grown linked related)

theorem weaken {weaker : Prop} (agrees : Agrees core excuse world first second post)
    (into : excuse → weaker) : Agrees core weaker world first second post := by
  cases agrees with
  | limited ran => exact .limited ran
  | excused excused ran => exact .excused (into excused) ran
  | failed ran ran' => exact .failed ran ran'
  | done ran ran' grown linked related => exact .done ran ran' grown linked related

theorem bind (agrees : Agrees core excuse world first second post)
    (rest : ∀ answer otherAnswer middle, world.Extends middle → middle.Linked core →
      post answer otherAnswer middle →
      Agrees core excuse middle (next answer) (nextOther otherAnswer) goal) :
    Agrees core excuse world (first >>= next) (second >>= nextOther) goal := by
  cases agrees with
  | limited ran => exact .limited (bind_error ran)
  | excused excused ran => exact .excused excused (bind_error ran)
  | failed ran ran' => exact .failed (bind_error ran) (bind_error ran')
  | done ran ran' grown linked related =>
      cases rest _ _ _ grown linked related with
      | limited again => exact .limited ((bind_ok ran).trans again)
      | excused excused again => exact .excused excused ((bind_ok ran').trans again)
      | failed again again' => exact .failed ((bind_ok ran).trans again) ((bind_ok ran').trans again')
      | done again again' grown' linked' related' =>
          exact .done ((bind_ok ran).trans again) ((bind_ok ran').trans again')
            (grown.trans grown') linked' related'

/-- What a run does on its own is known of the related answers. -/
theorem and_left {always : ResolverState → Prop} {own : α → ResolverState → Prop}
    (agrees : Agrees core excuse world first second post) (meets : Meets first world.left always own) :
    Agrees core excuse world first second fun answer otherAnswer next =>
      post answer otherAnswer next ∧ always next.left ∧ own answer next.left := by
  cases agrees with
  | limited ran => exact .limited ran
  | excused excused ran => exact .excused excused ran
  | failed ran ran' => exact .failed ran ran'
  | done ran ran' grown linked related =>
      exact .done ran ran' grown linked ⟨related, meets.always_ok ran, meets.answers _ _ ran⟩

theorem and_right {always : ResolverState → Prop} {own : β → ResolverState → Prop}
    (agrees : Agrees core excuse world first second post)
    (meets : Meets second world.right always own) :
    Agrees core excuse world first second fun answer otherAnswer next =>
      post answer otherAnswer next ∧ always next.right ∧ own otherAnswer next.right := by
  cases agrees with
  | limited ran => exact .limited ran
  | excused excused ran => exact .excused excused ran
  | failed ran ran' => exact .failed ran ran'
  | done ran ran' grown linked related =>
      exact .done ran ran' grown linked ⟨related, meets.always_ok ran', meets.answers _ _ ran'⟩

/-- Where the left run succeeds, so does the right one. -/
theorem of_left {after : ResolverState} (agrees : Agrees core excuse world first second post)
    (unexcused : ¬ excuse) (ran : first world.left = (.ok answer, after)) :
    ∃ otherAnswer next, second world.right = (.ok otherAnswer, next.right) ∧ next.left = after ∧
      world.Extends next ∧ next.Linked core ∧ post answer otherAnswer next := by
  cases agrees with
  | limited again => cases ran.symm.trans again
  | excused excused _ => exact (unexcused excused).elim
  | failed again _ => cases ran.symm.trans again
  | @done _ otherAnswer next again ran' grown linked related =>
      have same := ran.symm.trans again
      simp only [Prod.mk.injEq, Except.ok.injEq] at same
      obtain ⟨rfl, left⟩ := same
      exact ⟨otherAnswer, next, ran', left.symm, grown, linked, related⟩

/-- An error on the left is one on the right as well, unless it is that the limit is exceeded. -/
theorem of_left_error {error : SchemaError} {after : ResolverState}
    (agrees : Agrees core excuse world first second post) (unexcused : ¬ excuse)
    (ran : first world.left = (.error error, after))
    (decided : ∀ limit, error ≠ .depthLimitExceeded limit) : (second world.right).1 = .error error := by
  cases agrees with
  | limited again =>
      cases ran.symm.trans again
      exact (decided _ rfl).elim
  | excused excused _ => exact (unexcused excused).elim
  | failed again ran' =>
      cases ran.symm.trans again
      exact congrArg Prod.fst ran'
  | done again _ _ _ _ => cases ran.symm.trans again

/-- Two runs that succeed end in a world with related answers. -/
theorem of_both {after otherAfter : ResolverState} (agrees : Agrees core excuse world first second post)
    (ran : first world.left = (.ok answer, after))
    (ran' : second world.right = (.ok otherAnswer, otherAfter)) :
    ∃ next, next.left = after ∧ next.right = otherAfter ∧ world.Extends next ∧ next.Linked core ∧
      post answer otherAnswer next := by
  cases agrees with
  | limited again => cases ran.symm.trans again
  | excused _ again => cases ran'.symm.trans again
  | failed again _ => cases ran.symm.trans again
  | @done _ _ next again again' grown linked related =>
      have same := ran.symm.trans again
      have same' := ran'.symm.trans again'
      simp only [Prod.mk.injEq, Except.ok.injEq] at same same'
      obtain ⟨rfl, left⟩ := same
      obtain ⟨rfl, right⟩ := same'
      exact ⟨next, left.symm, right.symm, grown, linked, related⟩

/-- Another run on the right that does the same. -/
theorem congr_right {other : Run β} (agrees : Agrees core excuse world first second post)
    (same : other world.right = second world.right) :
    Agrees core excuse world first other post := by
  cases agrees with
  | limited ran => exact .limited ran
  | excused excused ran => exact .excused excused (same.trans ran)
  | failed ran ran' => exact .failed ran (same.trans ran')
  | done ran ran' grown linked related => exact .done ran (same.trans ran') grown linked related

/-- Another run on the left that does the same. -/
theorem congr_left {other : Run α} (agrees : Agrees core excuse world first second post)
    (same : other world.left = first world.left) :
    Agrees core excuse world other second post := by
  cases agrees with
  | limited ran => exact .limited (same.trans ran)
  | excused excused ran => exact .excused excused ran
  | failed ran ran' => exact .failed (same.trans ran) ran'
  | done ran ran' grown linked related => exact .done (same.trans ran) ran' grown linked related

/-- A run on the right that is known to succeed and to add nothing. -/
theorem settled (agrees : Agrees core excuse world first second post)
    (ran : second world.right = (.ok otherAnswer, world.right)) :
    Agrees core False world first (pure otherAnswer : Run β) fun answer other next =>
      other = otherAnswer ∧ next.right = world.right ∧ post answer other next := by
  cases agrees with
  | limited ran => exact .limited ran
  | excused _ ran' => cases ran.symm.trans ran'
  | failed _ ran' => cases ran.symm.trans ran'
  | @done answer other next ran' ran'' grown linked related =>
      cases h : next with
      | mk left right ids =>
          subst h
          cases ran.symm.trans ran''
          exact .done ran' rfl grown linked ⟨rfl, rfl, related⟩

/-- Only the left run goes on. -/
theorem bind_left {third : Run δ}
    (agrees : Agrees core False world first (pure otherAnswer : Run β) post)
    (rest : ∀ answer other middle, world.Extends middle → middle.Linked core →
      middle.right = world.right → post answer other middle →
      Agrees core excuse middle (next answer) third goal) :
    Agrees core excuse world (first >>= next) third goal := by
  cases agrees with
  | limited ran => exact .limited (bind_error ran)
  | excused _ ran' => cases ran'
  | failed _ ran' => cases ran'
  | @done answer other middle ran ran' grown linked related =>
      have same : middle.right = world.right := (congrArg Prod.snd ran').symm
      cases rest answer other middle grown linked same related with
      | limited again => exact .limited ((bind_ok ran).trans again)
      | excused excused again => exact .excused excused (same ▸ again)
      | failed again again' => exact .failed ((bind_ok ran).trans again) (same ▸ again')
      | done again again' grown' linked' related' =>
          exact .done ((bind_ok ran).trans again) (same ▸ again') (grown.trans grown') linked' related'

/-- Another answer on the right. -/
theorem answer_right {other : δ} {goal : α → δ → World → Prop}
    (agrees : Agrees core False world first (pure otherAnswer : Run β) post)
    (into : ∀ answer middle, world.Extends middle → middle.Linked core →
      post answer otherAnswer middle → goal answer other middle) :
    Agrees core excuse world first (pure other : Run δ) goal := by
  cases agrees with
  | limited ran => exact .limited ran
  | excused excused _ => exact excused.elim
  | failed _ ran' => cases ran'
  | done ran ran' grown linked related =>
      have same := ran'
      simp only [pure_apply, Prod.mk.injEq, Except.ok.injEq] at same
      obtain ⟨rfl, right⟩ := same
      exact .done ran (by rw [pure_apply, right]) grown linked (into _ _ grown linked related)

/-- The right run comes first, to a state that remembers no more shapes. -/
theorem after_right {right : ResolverState} (linked : world.Linked core)
    (ran : second world.right = (.ok otherAnswer, right)) (grown : world.right ≤ right)
    (sound : right.Sound core) (shapes : right.shapes = world.right.shapes)
    (rest : World.Linked core ⟨world.left, right, world.ids⟩ →
      Agrees core excuse ⟨world.left, right, world.ids⟩ first (pure otherAnswer : Run β) post) :
    Agrees core excuse world first second post := by
  have extended : world.Extends ⟨world.left, right, world.ids⟩ :=
    ⟨le_refl _, grown, fun _ _ related => related,
      fun _ shape known => .inl ⟨shape, by rwa [shapes] at known⟩⟩
  cases rest (linked.grow_right grown sound) with
  | limited again => exact .limited again
  | excused _ again => cases again
  | failed _ again => cases again
  | done again again' grown' linked' related' =>
      exact .done again (ran.trans again') (extended.trans grown') linked' related'

theorem pure (linked : world.Linked core) (related : post answer otherAnswer world) :
    Agrees core excuse world (pure answer : Run α) (pure otherAnswer : Run β) post :=
  .done rfl rfl (.refl world) linked related

theorem fail {error : SchemaError} :
    Agrees core excuse world (fail error : Run α) (fail error : Run β) post :=
  .failed rfl rfl

theorem out_of_steps (limit : Nat) :
    Agrees core excuse world (Run.fail (.depthLimitExceeded limit) : Run α) second post :=
  .limited rfl

theorem other_out_of_steps (excused : excuse) (limit : Nat) :
    Agrees core excuse world first (Run.fail (.depthLimitExceeded limit) : Run β) post :=
  .excused excused rfl

theorem read (linked : world.Linked core) (part : ResolverState → α) (other : ResolverState → β) :
    Agrees core excuse world (read part) (read other) fun answer otherAnswer next =>
      answer = part world.left ∧ otherAnswer = other world.right ∧ world = next :=
  .done rfl rfl (.refl world) linked ⟨rfl, rfl, rfl⟩

theorem node (linked : world.Linked core) {id other : SchemaId} (related : world.ids id other) :
    Agrees core excuse world (node id) (node other) fun node otherNode next =>
      world.left.arena.get? id = some node ∧ world.right.arena.get? other = some otherNode ∧
        Node.Related world.ids node otherNode ∧ world = next := by
  obtain ⟨node, otherNode, found, found', same⟩ := linked.nodes id other related
  exact .done (node_apply found) (node_apply found') (.refl world) linked ⟨found, found', same, rfl⟩

/-- A node is added on the left for one that is on the right. -/
theorem alloc (linked : world.Linked core) {node otherNode : Node} {other : SchemaId}
    (found : world.right.arena.get? other = some otherNode)
    (related : Node.Related world.ids node otherNode)
    (issued : ∀ child ∈ node.children, child.index < world.left.arena.size)
    (synthetic : Synthetic core world.right other) :
    Agrees core excuse world (Run.alloc node) (Pure.pure other : Run SchemaId)
      fun id third next => id = ⟨world.left.arena.size⟩ ∧ other = third ∧
        next = world.alloc node other ∧ next.ids id third :=
  have ran : Run.alloc node world.left = (.ok ⟨world.left.arena.size⟩, (world.alloc node other).left) :=
    rfl
  .done ran rfl (world.extends_alloc node other) (linked.alloc found related issued synthetic)
    ⟨rfl, rfl, rfl, .inr ⟨rfl, rfl⟩⟩

end Agrees

end Conform.Agreement
