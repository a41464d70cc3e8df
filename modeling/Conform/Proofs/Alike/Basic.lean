import Conform.Proofs.Agreement.Related
import Conform.Proofs.Arena.Ordered

/-! Nodes that are alike.  Two identities, each in an arena of its own, are alike if they stand for
the same tree of nodes: a reference counts as a leaf with its name. -/

namespace Conform

theorem Node.Related.refl {ids : SchemaId → SchemaId → Prop} {node : Node}
    (same : ∀ child ∈ node.children, ids child child) : Node.Related ids node node := by
  have each {listed : List SchemaId} (all : ∀ child ∈ listed, ids child child) :
      List.Forall₂ ids listed listed := List.forall₂_same.mpr all
  cases node with
  | array element => exact .array (same element (List.mem_singleton_self _))
  | tuple elements optionalStart => exact .tuple (each same) optionalStart
  | indexedAccess object index => exact .indexedAccess (same object (List.mem_singleton_self _)) index
  | union members => exact .union (each same)
  | intersection members => exact .intersection (each same)
  | interface properties index parents =>
      have declared : Shape.Related ids ⟨properties, index⟩ ⟨properties, index⟩ :=
        .refl fun type listed => same type (List.mem_append_left _ listed)
      exact .interface declared.properties declared.index
        (each fun parent listed => same parent (List.mem_append_right _ listed))
  | mapped combinator target =>
      refine .mapped ?_ (same target (List.mem_cons_self ..))
      cases combinator with
      | pick keys => exact .pick keys
      | optional => exact .optional
      | without keys => exact .without keys
      | overwrite patch =>
          exact .overwrite (same patch (List.mem_cons_of_mem _ (List.mem_singleton_self _)))
  | _ => exact .plain trivial

theorem Combinator.Related.imp_of_mem {ids wider : SchemaId → SchemaId → Prop} {combinator other : Combinator}
    (into : ∀ id twin, id ∈ combinator.children → twin ∈ other.children → ids id twin → wider id twin)
    (related : Combinator.Related ids combinator other) : Combinator.Related wider combinator other := by
  cases related with
  | pick keys => exact .pick keys
  | optional => exact .optional
  | without keys => exact .without keys
  | overwrite patches => exact .overwrite (into _ _ (List.mem_singleton_self _) (List.mem_singleton_self _) patches)

/-- Only the children count. -/
theorem Node.Related.imp_of_mem {ids wider : SchemaId → SchemaId → Prop} {node other : Node}
    (into : ∀ id twin, id ∈ node.children → twin ∈ other.children → ids id twin → wider id twin)
    (related : Node.Related ids node other) : Node.Related wider node other := by
  cases related with
  | plain plain => exact .plain plain
  | array elements => exact .array (into _ _ (List.mem_singleton_self _) (List.mem_singleton_self _) elements)
  | tuple elements start => exact .tuple (Conform.imp_of_mem elements into) start
  | @interface properties others index otherIndex parents otherParents declared signed inherited =>
      have shapes : Shape.Related ids ⟨properties, index⟩ ⟨others, otherIndex⟩ := ⟨declared, signed⟩
      have own : Shape.Related wider ⟨properties, index⟩ ⟨others, otherIndex⟩ :=
        shapes.imp_of_mem fun id twin listed listed' =>
          into id twin (List.mem_append_left _ listed) (List.mem_append_left _ listed')
      exact .interface own.properties own.index (Conform.imp_of_mem inherited fun id twin listed listed' =>
        into id twin (List.mem_append_right _ listed) (List.mem_append_right _ listed'))
  | indexedAccess objects index =>
      exact .indexedAccess (into _ _ (List.mem_singleton_self _) (List.mem_singleton_self _) objects) index
  | union members => exact .union (Conform.imp_of_mem members into)
  | intersection members => exact .intersection (Conform.imp_of_mem members into)
  | mapped combinators targets =>
      exact .mapped (combinators.imp_of_mem fun id twin listed listed' =>
          into id twin (List.mem_cons_of_mem _ listed) (List.mem_cons_of_mem _ listed'))
        (into _ _ (List.mem_cons_self ..) (List.mem_cons_self ..) targets)

theorem Node.Related.concrete {ids : SchemaId → SchemaId → Prop} {node other : Node}
    (related : Node.Related ids node other) : node.IsConcrete ↔ other.IsConcrete := by
  cases related <;> rfl

namespace Arena

variable {ids : SchemaId → SchemaId → Prop} {arena left right laterLeft laterRight : Arena}
  {id other : SchemaId} {node otherNode : Node}

/-- Related identities stand for nodes that differ in related identities only. -/
def Unfolds (left right : Arena) (ids : SchemaId → SchemaId → Prop) : Prop :=
  ∀ id other, ids id other → ∃ node otherNode, left.get? id = some node ∧
    right.get? other = some otherNode ∧ Node.Related ids node otherNode

/-- The two are related by some relation that is kept from every node to the nodes in it. -/
def Alike (left right : Arena) (id other : SchemaId) : Prop :=
  ∃ ids, Unfolds left right ids ∧ ids id other

theorem Unfolds.later (unfolds : Unfolds left right ids) (grown : left ≤ laterLeft)
    (grown' : right ≤ laterRight) : Unfolds laterLeft laterRight ids := by
  intro id other related
  obtain ⟨node, otherNode, found, found', same⟩ := unfolds id other related
  exact ⟨node, otherNode, get?_mono grown found, get?_mono grown' found', same⟩

namespace Alike

theorem unfolds (left right : Arena) : Unfolds left right (Alike left right) := by
  rintro id other ⟨ids, unfolds, related⟩
  obtain ⟨node, otherNode, found, found', same⟩ := unfolds id other related
  exact ⟨node, otherNode, found, found', same.imp fun _ _ pair => ⟨ids, unfolds, pair⟩⟩

theorem of_nodes (found : left.get? id = some node) (found' : right.get? other = some otherNode)
    (related : Node.Related (Alike left right) node otherNode) : Alike left right id other := by
  let either : SchemaId → SchemaId → Prop := fun first second =>
    Alike left right first second ∨ first = id ∧ second = other
  have into (first second : SchemaId) (alike : Alike left right first second) : either first second :=
    .inl alike
  refine ⟨either, ?_, .inr ⟨rfl, rfl⟩⟩
  rintro first second (alike | ⟨rfl, rfl⟩)
  · obtain ⟨node, otherNode, found, found', same⟩ := unfolds left right first second alike
    exact ⟨node, otherNode, found, found', same.imp into⟩
  · exact ⟨node, otherNode, found, found', related.imp into⟩

theorem later (alike : Alike left right id other) (grown : left ≤ laterLeft) (grown' : right ≤ laterRight) :
    Alike laterLeft laterRight id other := by
  obtain ⟨ids, unfolds, related⟩ := alike
  exact ⟨ids, unfolds.later grown grown', related⟩

/-- What two arenas have in common is alike. -/
theorem shared (ordered : Ordered arena.nodes) (grown : arena ≤ left) (grown' : arena ≤ right)
    (issued : id.index < arena.size) : Alike left right id id := by
  refine ⟨fun first second => first = second ∧ first.index < arena.size, ?_, rfl, issued⟩
  rintro first _ ⟨rfl, issued⟩
  obtain ⟨node, found⟩ := arena.exists_get? first issued
  refine ⟨node, node, get?_mono grown found, get?_mono grown' found, .refl fun child listed => ⟨rfl, ?_⟩⟩
  exact Nat.lt_trans (ordered first.index node found child listed) issued

end Alike

/-- The identities of as many nodes, counted from a place in each arena. -/
def Shifted (start otherStart count : Nat) (id other : SchemaId) : Prop :=
  ∃ offset < count, id = ⟨start + offset⟩ ∧ other = ⟨otherStart + offset⟩

/-- The last nodes of the two are the same, up to where they start. -/
structure Parallel (start otherStart count : Nat) (nodes others : Array Node) : Prop where
  size : nodes.size = start + count
  otherSize : others.size = otherStart + count
  same : ∀ offset < count, ∃ node otherNode, nodes[start + offset]? = some node ∧
    others[otherStart + offset]? = some otherNode ∧
    Node.Related (Shifted start otherStart count) node otherNode

variable {start otherStart count more : Nat} {nodes others : Array Node}

theorem Shifted.widen (shifted : Shifted start otherStart count id other) (wide : count ≤ more) :
    Shifted start otherStart more id other := by
  obtain ⟨offset, inside, same, same'⟩ := shifted
  exact ⟨offset, Nat.lt_of_lt_of_le inside wide, same, same'⟩

theorem Parallel.none (nodes others : Array Node) : Parallel nodes.size others.size 0 nodes others :=
  ⟨rfl, rfl, fun _ inside => (Nat.not_lt_zero _ inside).elim⟩

/-- Further on in parallel, with related answers. -/
def Onward (start otherStart count : Nat) {α : Type} (related : (SchemaId → SchemaId → Prop) → α → α → Prop)
    (first second : α × Array Node) : Prop :=
  ∃ more, count ≤ more ∧ Parallel start otherStart more first.2 second.2 ∧
    related (Shifted start otherStart more) first.1 second.1

namespace Onward

variable {α β : Type} {related : (SchemaId → SchemaId → Prop) → α → α → Prop}
  {goal : (SchemaId → SchemaId → Prop) → β → β → Prop} {first second : α × Array Node}
  {last otherLast : β × Array Node}

theorem andThen (onward : Onward start otherStart count related first second)
    (rest : ∀ more, count ≤ more → Parallel start otherStart more first.2 second.2 →
      related (Shifted start otherStart more) first.1 second.1 →
      Onward start otherStart more goal last otherLast) :
    Onward start otherStart count goal last otherLast := by
  obtain ⟨more, wide, parallel, answers⟩ := onward
  obtain ⟨most, wider, parallel', answers'⟩ := rest more wide parallel answers
  exact ⟨most, Nat.le_trans wide wider, parallel', answers'⟩

theorem done {answer otherAnswer : α} (parallel : Parallel start otherStart count nodes others)
    (answers : related (Shifted start otherStart count) answer otherAnswer) :
    Onward start otherStart count related (answer, nodes) (otherAnswer, others) :=
  ⟨count, Nat.le_refl _, parallel, answers⟩

theorem push (parallel : Parallel start otherStart count nodes others)
    (same : Node.Related (Shifted start otherStart count) node otherNode) :
    Onward start otherStart count (·) (push node nodes) (push otherNode others) := by
  have wide := Nat.le_succ count
  refine ⟨count + 1, wide, ⟨?_, ?_, fun offset inside => ?_⟩, count, Nat.lt_succ_self _, ?_, ?_⟩
  · simp only [Arena.push, Array.size_push, parallel.size]
    omega
  · simp only [Arena.push, Array.size_push, parallel.otherSize]
    omega
  · rcases Nat.lt_succ_iff_lt_or_eq.mp inside with earlier | rfl
    · obtain ⟨node, otherNode, found, found', related⟩ := parallel.same offset earlier
      refine ⟨node, otherNode, ?_, ?_, related.imp fun _ _ pair => pair.widen wide⟩
      · have differ : start + offset ≠ nodes.size := by rw [parallel.size]; omega
        simpa only [Arena.push, Array.getElem?_push, if_neg differ] using found
      · have differ : otherStart + offset ≠ others.size := by rw [parallel.otherSize]; omega
        simpa only [Arena.push, Array.getElem?_push, if_neg differ] using found'
    · refine ⟨node, otherNode, ?_, ?_, same.imp fun _ _ pair => pair.widen wide⟩
      · simp only [Arena.push, Array.getElem?_push, parallel.size, if_true]
      · simp only [Arena.push, Array.getElem?_push, parallel.otherSize, if_true]
  · simp only [Arena.push, parallel.size]
  · simp only [Arena.push, parallel.otherSize]

end Onward

mutual

theorem pushSchema_onward : ∀ (schema : Schema) {count : Nat} {nodes others : Array Node},
    Parallel start otherStart count nodes others →
      Onward start otherStart count (·) (pushSchema schema nodes) (pushSchema schema others)
  | .boolean | .string | .any | .nonPrimitive | .number _ | .literal _ | .enumeration _ | .buffer _
  | .reference _ => fun parallel => .push parallel (.plain trivial)
  | .array element => fun parallel =>
      (pushSchema_onward element parallel).andThen fun _ _ parallel pair => .push parallel (.array pair)
  | .tuple elements _ => fun parallel =>
      (pushSchemas_onward elements parallel).andThen fun _ _ parallel pairs =>
        .push parallel (.tuple pairs _)
  | .interface properties index parents => fun parallel =>
      (pushProperties_onward properties parallel).andThen fun _ _ parallel declared =>
        (pushIndex_onward index parallel).andThen fun _ wide parallel signed =>
          (pushBranches_onward parents parallel).andThen fun _ wider parallel inherited =>
            .push parallel (.interface
              (declared.imp fun _ _ => .imp fun _ _ pair => pair.widen (Nat.le_trans wide wider))
              (IndexSignature.Related.rel_imp (fun _ _ pair => pair.widen wider) signed) inherited)
  | .indexedAccess object _ => fun parallel =>
      (pushSchema_onward object parallel).andThen fun _ _ parallel pair =>
        .push parallel (.indexedAccess pair _)
  | .union members => fun parallel =>
      (pushBranches_onward members parallel).andThen fun _ _ parallel pairs =>
        .push parallel (.union pairs)
  | .intersection members => fun parallel =>
      (pushBranches_onward members parallel).andThen fun _ _ parallel pairs =>
        .push parallel (.intersection pairs)
  | .pick target keys => fun parallel =>
      (pushSchema_onward target parallel).andThen fun _ _ parallel pair =>
        .push parallel (.mapped (.pick keys) pair)
  | .optional target => fun parallel =>
      (pushSchema_onward target parallel).andThen fun _ _ parallel pair =>
        .push parallel (.mapped .optional pair)
  | .without target keys => fun parallel =>
      (pushSchema_onward target parallel).andThen fun _ _ parallel pair =>
        .push parallel (.mapped (.without keys) pair)
  | .overwrite target patch => fun parallel =>
      (pushSchema_onward target parallel).andThen fun _ _ parallel pair =>
        (pushSchema_onward patch parallel).andThen fun _ wide parallel patches =>
          .push parallel (.mapped (.overwrite patches) (pair.widen wide))
termination_by structural schema => schema

theorem pushSchemas_onward : ∀ (schemas : List Schema) {count : Nat} {nodes others : Array Node},
    Parallel start otherStart count nodes others →
      Onward start otherStart count List.Forall₂ (pushSchemas schemas nodes) (pushSchemas schemas others)
  | [] => fun parallel => .done parallel .nil
  | schema :: rest => fun parallel =>
      (pushSchema_onward schema parallel).andThen fun _ _ parallel pair =>
        (pushSchemas_onward rest parallel).andThen fun _ wide parallel pairs =>
          .done parallel (.cons (pair.widen wide) pairs)
termination_by structural schemas => schemas

theorem pushProperties_onward : ∀ (properties : List PropertyDecl) {count : Nat} {nodes others : Array Node},
    Parallel start otherStart count nodes others → Onward start otherStart count
      (fun ids => List.Forall₂ (Property.Related ids)) (pushProperties properties nodes)
      (pushProperties properties others)
  | [] => fun parallel => .done parallel .nil
  | ⟨_, _, _, type⟩ :: rest => fun parallel =>
      (pushSchema_onward type parallel).andThen fun _ _ parallel pair =>
        (pushProperties_onward rest parallel).andThen fun _ wide parallel pairs =>
          .done parallel (.cons ⟨rfl, rfl, pair.widen wide⟩ pairs)
termination_by structural properties => properties

theorem pushIndex_onward : ∀ (index : Option IndexDecl) {count : Nat} {nodes others : Array Node},
    Parallel start otherStart count nodes others → Onward start otherStart count
      (fun ids => Option.Rel (IndexSignature.Related ids)) (pushIndex index nodes) (pushIndex index others)
  | none => fun parallel => .done parallel .none
  | some ⟨_, type⟩ => fun parallel =>
      (pushSchema_onward type parallel).andThen fun _ _ parallel pair =>
        .done parallel (.some ⟨rfl, pair⟩)
termination_by structural index => index

theorem pushBranches_onward : ∀ (branches : List Branch) {count : Nat} {nodes others : Array Node},
    Parallel start otherStart count nodes others →
      Onward start otherStart count List.Forall₂ (pushBranches branches nodes) (pushBranches branches others)
  | [] => fun parallel => .done parallel .nil
  | ⟨_, type⟩ :: rest => fun parallel =>
      (pushSchema_onward type parallel).andThen fun _ _ parallel pair =>
        (pushBranches_onward rest parallel).andThen fun _ wide parallel pairs =>
          .done parallel (.cons (pair.widen wide) pairs)
termination_by structural branches => branches

end

theorem Parallel.unfolds (parallel : Parallel start otherStart count left.nodes right.nodes) :
    Unfolds left right (Shifted start otherStart count) := by
  rintro _ _ ⟨offset, inside, rfl, rfl⟩
  exact parallel.same offset inside

/-- A schema that is added to two arenas is alike. -/
theorem Alike.interned (left right : Arena) (schema : Schema) :
    Alike (left.intern schema).2 (right.intern schema).2 (left.intern schema).1 (right.intern schema).1 := by
  obtain ⟨count, -, parallel, root⟩ := pushSchema_onward schema (.none left.nodes right.nodes)
  exact ⟨_, Parallel.unfolds parallel, root⟩

end Arena

end Conform
