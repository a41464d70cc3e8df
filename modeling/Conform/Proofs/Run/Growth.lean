import Mathlib.Order.Defs.PartialOrder
import Conform.Resolver.State

/-! Growth of the state of resolution.  Nodes are only ever added, and an entry
of a memo is only added where nothing is remembered yet, so states are ordered
by what one of them adds to the other. -/

namespace Conform

namespace Memo

variable {α : Type} {memo before after : Memo α} {id other : SchemaId} {result found : α}

instance : PartialOrder (Memo α) where
  le before after := before.entries <:+ after.entries ∧
    ∀ id result, before.find? id = some result → after.find? id = some result
  le_refl memo := ⟨List.suffix_refl _, fun _ _ found => found⟩
  le_trans _ _ _ first second := ⟨first.1.trans second.1,
    fun id result found => second.2 id result (first.2 id result found)⟩
  le_antisymm before after first second := by
    have same : before.entries = after.entries :=
      first.1.eq_of_length (Nat.le_antisymm first.1.length_le second.1.length_le)
    cases before
    cases after
    cases same
    rfl

theorem find?_mono (grown : before ≤ after) (found : before.find? id = some result) :
    after.find? id = some result :=
  grown.2 id result found

theorem suffix_of_le (grown : before ≤ after) : before.entries <:+ after.entries :=
  grown.1

theorem empty_le (memo : Memo α) : empty ≤ memo :=
  ⟨List.nil_suffix, fun _ _ found => nomatch found⟩

theorem find?_cons :
    (⟨(id, result) :: memo.entries⟩ : Memo α).find? other =
      if other = id then some result else memo.find? other := by
  by_cases same : other = id
  · simp [find?, same]
  · have differ : (other == id) = false := by simpa using same
    simp [find?, List.lookup_cons, differ, same]

theorem cons_le (unknown : memo.find? id = none) : memo ≤ ⟨(id, result) :: memo.entries⟩ := by
  refine ⟨List.suffix_cons _ _, fun other found known => ?_⟩
  rw [find?_cons]
  by_cases same : other = id
  · rw [same, unknown] at known
    contradiction
  · rw [if_neg same, known]

theorem settle_known (known : memo.find? id = some found) :
    memo.settle id result = (found, memo) := by
  simp only [settle, known]

theorem settle_unknown (unknown : memo.find? id = none) :
    memo.settle id result = (result, ⟨(id, result) :: memo.entries⟩) := by
  simp only [settle, unknown]

theorem le_settle (memo : Memo α) (id : SchemaId) (result : α) :
    memo ≤ (memo.settle id result).2 := by
  cases known : memo.find? id with
  | some found => rw [settle_known known]
  | none =>
      rw [settle_unknown known]
      exact cons_le known

/-- What is kept is what is found from then on. -/
theorem find?_settle (memo : Memo α) (id : SchemaId) (result : α) :
    (memo.settle id result).2.find? id = some (memo.settle id result).1 := by
  cases known : memo.find? id with
  | some found => rw [settle_known known, known]
  | none => rw [settle_unknown known, find?_cons, if_pos rfl]

/-- Only the settled identity can have become known. -/
theorem find?_settle_cases (found : (memo.settle id result).2.find? other = some foundResult) :
    memo.find? other = some foundResult ∨
      other = id ∧ foundResult = result ∧ memo.find? id = none := by
  cases known : memo.find? id with
  | some earlier =>
      rw [settle_known known] at found
      exact .inl found
  | none =>
      rw [settle_unknown known, find?_cons] at found
      by_cases same : other = id
      · rw [if_pos same] at found
        exact .inr ⟨same, (Option.some.inj found).symm, rfl⟩
      · rw [if_neg same] at found
        exact .inl found

/-- What follows for every entry from the older ones holds of all that is remembered. -/
theorem find?_induction {motive : SchemaId → α → Prop}
    (step : ∀ older id result, (id, result) :: older <:+ memo.entries →
      (∀ other earlier, older.lookup other = some earlier → motive other earlier) → motive id result)
    (known : memo.find? id = some result) : motive id result := by
  have each (entries : List (SchemaId × α)) (suffix : entries <:+ memo.entries) :
      ∀ id result, entries.lookup id = some result → motive id result := by
    induction entries with
    | nil => simp
    | cons entry older ih =>
        obtain ⟨key, kept⟩ := entry
        have earlier := ih ((List.suffix_cons _ older).trans suffix)
        intro id result known
        by_cases same : id = key
        · subst same
          simp only [List.lookup_cons, beq_self_eq_true, Option.some.injEq] at known
          subst known
          exact step older id kept suffix earlier
        · have differ : (id == key) = false := beq_eq_false_iff_ne.mpr same
          simp only [List.lookup_cons, differ] at known
          exact earlier id result known
  exact each memo.entries List.suffix_rfl id result known

/-- A remembered result has its entry, with the older entries behind it. -/
theorem exists_older (found : memo.find? id = some result) :
    ∃ older, (id, result) :: older <:+ memo.entries := by
  obtain ⟨entries⟩ := memo
  induction entries with
  | nil => simp [find?] at found
  | cons entry rest ih =>
      obtain ⟨key, value⟩ := entry
      have step : (⟨(key, value) :: rest⟩ : Memo α).find? id =
          if id = key then some value else (⟨rest⟩ : Memo α).find? id := find?_cons
      by_cases same : id = key
      · rw [step, if_pos same] at found
        cases found
        subst same
        exact ⟨rest, List.suffix_refl _⟩
      · rw [step, if_neg same] at found
        obtain ⟨older, suffix⟩ := ih found
        exact ⟨older, suffix.trans (List.suffix_cons _ _)⟩

end Memo

namespace Arena

variable {before after arena : Arena} {id : SchemaId} {node found : Node}

instance : PartialOrder Arena where
  le before after := after.symbols = before.symbols ∧
    ∀ id node, before.get? id = some node → after.get? id = some node
  le_refl _ := ⟨rfl, fun _ _ found => found⟩
  le_trans _ _ _ first second := ⟨second.1.trans first.1,
    fun id node found => second.2 id node (first.2 id node found)⟩
  le_antisymm before after first second := by
    obtain ⟨nodes, symbols⟩ := before
    obtain ⟨laterNodes, laterSymbols⟩ := after
    obtain ⟨sameSymbols, into⟩ := first
    have same : nodes = laterNodes := by
      apply Array.ext_getElem?
      intro index
      cases present : nodes[index]? with
      | some node => exact (into ⟨index⟩ node present).symm
      | none =>
          cases added : laterNodes[index]? with
          | none => rfl
          | some node => exact present.symm.trans (second.2 ⟨index⟩ node added)
    subst same
    cases sameSymbols
    rfl

theorem get?_mono (grown : before ≤ after) (found : before.get? id = some node) :
    after.get? id = some node :=
  grown.2 id node found

theorem symbols_eq (grown : before ≤ after) : after.symbols = before.symbols :=
  grown.1

theorem index_lt_size (found : arena.get? id = some node) : id.index < arena.size := by
  exact (Array.getElem?_eq_some_iff.mp found).1

theorem exists_get? (arena : Arena) (id : SchemaId) (present : id.index < arena.size) :
    ∃ node, arena.get? id = some node :=
  ⟨_, Array.getElem?_eq_getElem present⟩

theorem size_mono (grown : before ≤ after) : before.size ≤ after.size := by
  cases size : before.size with
  | zero => exact Nat.zero_le _
  | succ last =>
      obtain ⟨node, found⟩ := before.exists_get? ⟨last⟩ (by rw [size]; exact Nat.lt_succ_self _)
      exact index_lt_size (get?_mono grown found)

theorem get?_alloc_self (arena : Arena) (node : Node) :
    (arena.alloc node).2.get? ⟨arena.size⟩ = some node := by
  simp [alloc, push, get?, size]

theorem get?_alloc_cases (found : (arena.alloc node).2.get? id = some other) :
    arena.get? id = some other ∨ id = ⟨arena.size⟩ ∧ other = node := by
  obtain ⟨index⟩ := id
  simp only [alloc, push, get?, Array.getElem?_push] at found ⊢
  split at found
  · rename_i last
    exact .inr ⟨by rw [last]; rfl, (Option.some.inj found).symm⟩
  · exact .inl found

theorem le_alloc (arena : Arena) (node : Node) : arena ≤ (arena.alloc node).2 := by
  refine ⟨rfl, fun id present found => ?_⟩
  have inside := index_lt_size found
  have differ : id.index ≠ arena.nodes.size := Nat.ne_of_lt inside
  simp only [alloc, push, get?, Array.getElem?_push, if_neg differ]
  exact found

theorem size_alloc (arena : Arena) (node : Node) : (arena.alloc node).2.size = arena.size + 1 := by
  simp [alloc, push, size]

theorem symbol?_mono (grown : before ≤ after) (path symbol : String) :
    after.symbol? path symbol = before.symbol? path symbol := by
  simp only [symbol?, symbols_eq grown]

end Arena

namespace ResolverState

variable {before after : ResolverState}

instance : PartialOrder ResolverState where
  le before after := before.arena ≤ after.arena ∧ before.shapes ≤ after.shapes ∧
    before.foreign ≤ after.foreign ∧ before.projections ≤ after.projections ∧
    before.distributions ≤ after.distributions
  le_refl _ := ⟨le_refl _, le_refl _, le_refl _, le_refl _, le_refl _⟩
  le_trans _ _ _ first second := ⟨le_trans first.1 second.1, le_trans first.2.1 second.2.1,
    le_trans first.2.2.1 second.2.2.1, le_trans first.2.2.2.1 second.2.2.2.1,
    le_trans first.2.2.2.2 second.2.2.2.2⟩
  le_antisymm before after first second := by
    cases before
    cases after
    obtain ⟨arena, shapes, foreign, projections, distributions⟩ := first
    obtain ⟨arena', shapes', foreign', projections', distributions'⟩ := second
    simp only [ResolverState.mk.injEq]
    exact ⟨le_antisymm arena arena', le_antisymm shapes shapes', le_antisymm foreign foreign',
      le_antisymm projections projections', le_antisymm distributions distributions'⟩

theorem arena_le (grown : before ≤ after) : before.arena ≤ after.arena :=
  grown.1

theorem shapes_le (grown : before ≤ after) : before.shapes ≤ after.shapes :=
  grown.2.1

theorem foreign_le (grown : before ≤ after) : before.foreign ≤ after.foreign :=
  grown.2.2.1

theorem projections_le (grown : before ≤ after) : before.projections ≤ after.projections :=
  grown.2.2.2.1

theorem distributions_le (grown : before ≤ after) : before.distributions ≤ after.distributions :=
  grown.2.2.2.2

theorem get?_later {id : SchemaId} {node : Node} (found : before.arena.get? id = some node)
    (grown : before ≤ after) : after.arena.get? id = some node :=
  Arena.get?_mono (arena_le grown) found

theorem shape_later {id : SchemaId} {shape : Shape} (found : before.shapes.find? id = some shape)
    (grown : before ≤ after) : after.shapes.find? id = some shape :=
  Memo.find?_mono (shapes_le grown) found

theorem foreign_later {id : SchemaId} {fields : ForeignFields}
    (found : before.foreign.find? id = some fields) (grown : before ≤ after) :
    after.foreign.find? id = some fields :=
  Memo.find?_mono (foreign_le grown) found

theorem projection_later {id projected : SchemaId}
    (found : before.projections.find? id = some projected) (grown : before ≤ after) :
    after.projections.find? id = some projected :=
  Memo.find?_mono (projections_le grown) found

theorem distribution_later {id union : SchemaId}
    (found : before.distributions.find? id = some union) (grown : before ≤ after) :
    after.distributions.find? id = some union :=
  Memo.find?_mono (distributions_le grown) found

end ResolverState

end Conform
