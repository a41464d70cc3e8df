import Conform.Proofs.Agreement.Collecting

/-! Foreign fields side by side.  Where the right state remembers them the left
run searches alone, within the branches that the right one has surveyed. -/

namespace Conform.Agreement

open Run Resolver

variable {core : Nat} {world : World} {id other : SchemaId} {fields otherFields : ForeignFields}

theorem keepForeign_agrees (linked : world.Linked core) (related : world.ids id other)
    (surveys : Surveys world.left id fields) (surveys' : Surveys world.right other otherFields) :
    Agrees core False world (keepForeign id fields) (keepForeign other otherFields)
      fun kept otherKept _ => kept = otherKept := by
  let left := { world.left with foreign := (world.left.foreign.settle id fields).2 }
  let right := { world.right with foreign := (world.right.foreign.settle other otherFields).2 }
  let last : World := ⟨left, right, world.ids⟩
  have grown : world.left ≤ left := le_keepForeign world.left id fields
  have grown' : world.right ≤ right := le_keepForeign world.right other otherFields
  have linked' : last.Linked core := by
    refine linked.grow grown grown' (linked.left.keepForeign surveys)
      (linked.right.keepForeign surveys') rfl (fun _ _ shape _ found => .inl ⟨shape, found⟩)
      (fun _ _ _ _ found => .inl found) (fun _ _ _ _ found => .inl found)
      (fun key otherKey found pair learned => ?_)
    rcases Memo.find?_settle_cases learned with earlier | ⟨rfl, rfl, -⟩
    · exact .inl earlier
    · cases linked.functional _ _ _ related pair
      refine .inr ((Memo.find?_settle _ _ _).trans (congrArg some ?_))
      exact (linked.settled.surveys_eq related surveys (surveys'.kept linked.right)).symm
  have extended : world.Extends last :=
    ⟨grown, grown', fun _ _ pair => pair, fun _ shape found => .inl ⟨shape, found⟩⟩
  have ran : keepForeign id fields world.left = (.ok _, last.left) := keepForeign_apply
  have ran' : keepForeign other otherFields world.right = (.ok _, last.right) := keepForeign_apply
  exact .done ran ran' extended linked'
    (linked.settled.surveys_eq related (surveys.kept linked.left) (surveys'.kept linked.right))

theorem foreignFields_agrees {limit limit' : Nat} (linked : world.Linked core)
    (related : world.ids id other) (limit_le : limit ≤ limit') :
    Agrees core False world (foreignFields limit id) (foreignFields limit' other)
      fun fields otherFields _ => fields = otherFields := by
  refine .bind (.read linked _ _) ?_
  rintro _ _ _ - - ⟨rfl, rfl, rfl⟩
  cases known : world.left.foreign.find? id with
  | some fields =>
      simp only [linked.foreign _ _ _ related known]
      exact .pure linked rfl
  | none =>
      cases known' : world.right.foreign.find? other with
      | some otherFields =>
          obtain ⟨visited, resolved, resolves, inside, explored, _⟩ :=
            linked.right.foreign other otherFields known'
          have traces : CollectTraces core [] (collectWithin limit limit) :=
            collectWithin_traces limit limit
          have alone := traces world (· ∈ visited) .empty [id] [other] linked
            (fun branch listed => .inr (explored branch listed).1) (List.nil_subset _)
            (.cons related .nil) fun start listed => by
              cases List.mem_singleton.mp listed
              exact ⟨resolved, inside, resolves⟩
          refine .bind_left (alone.and_left
            (collectWithin_meets limit limit .empty [id] world.left linked.left .empty)) ?_
          rintro result _ middle grown linked' right ⟨-, -, collects⟩
          have surveys' := linked'.right.foreign other otherFields (by rw [right]; exact known')
          refine (keepForeign_agrees linked' (grown.ids _ _ related) collects.surveys
            surveys').congr_right ?_
          rw [keepForeign_apply, Memo.settle_known (by rw [right]; exact known')]
          rfl
      | none =>
          have unmarked : Marked core world.right [] 0 (some other) :=
            ⟨fun _ listed => (List.not_mem_nil listed).elim,
              fun _ listed => (List.not_mem_nil listed).elim⟩
          refine .bind (((collectWithin_pairs limit_le limit limit' limit_le world .empty .empty [id]
            [other] 0 linked .empty .nil unmarked (.cons related .nil) fun _ _ => .inl rfl).and_left
            (collectWithin_meets limit limit .empty [id] world.left linked.left .empty)).and_right
            (collectWithin_meets limit' limit' .empty [other] world.right linked.right .empty)) ?_
          rintro result otherResult middle grown linked' ⟨⟨-, -, collects⟩, -, collects'⟩
          exact keepForeign_agrees linked' (grown.ids _ _ related) collects.surveys collects'.surveys

end Conform.Agreement
