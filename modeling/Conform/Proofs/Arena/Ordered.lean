import Conform.Proofs.Resolver.Additions

/-! Interned schemas.  Inner schemas are added first, so a node mentions earlier
ones only: in the arena of a registry, and after every schema that is interned. -/

namespace Conform.Arena

variable {α β : Type} {given : List SchemaId} {mentions : α → List SchemaId}
  {others : β → List SchemaId} {first : StateM (Array Node) α} {next : α → StateM (Array Node) β}

/-- Every node mentions earlier ones only. -/
def Ordered (nodes : Array Node) : Prop :=
  ∀ (index : Nat) (node : Node), nodes[index]? = some node →
    ∀ child ∈ node.children, child.index < index

def Within (nodes : Array Node) (ids : List SchemaId) : Prop :=
  ∀ id ∈ ids, id.index < nodes.size

structure Adds (before after : Array Node) : Prop where
  kept : ∀ (index : Nat) (node : Node), before[index]? = some node → after[index]? = some node
  size_le : before.size ≤ after.size
  ordered : Ordered after

theorem Adds.trans {before middle after : Array Node} (first : Adds before middle)
    (second : Adds middle after) : Adds before after :=
  ⟨fun index node found => second.kept index node (first.kept index node found),
    Nat.le_trans first.size_le second.size_le, second.ordered⟩

theorem Adds.within {before after : Array Node} (adds : Adds before after) {ids : List SchemaId}
    (within : Within before ids) : Within after ids :=
  fun id listed => Nat.lt_of_lt_of_le (within id listed) adds.size_le

/-- Nodes are added in order.  The run may use identities that are given, and
what its answer mentions is there at the end. -/
def Issues (given : List SchemaId) (run : StateM (Array Node) α) (mentions : α → List SchemaId) :
    Prop :=
  ∀ nodes, Ordered nodes → Within nodes given →
    Adds nodes (run nodes).2 ∧ Within (run nodes).2 (mentions (run nodes).1)

namespace Issues

theorem bind (part : Issues given first mentions)
    (rest : ∀ answer, Issues (mentions answer ++ given) (next answer) others) :
    Issues given (first >>= next) others := by
  intro nodes ordered within
  obtain ⟨adds, issued⟩ := part nodes ordered within
  have all : Within (first nodes).2 (mentions (first nodes).1 ++ given) := fun id listed =>
    (List.mem_append.mp listed).elim (issued id) (adds.within within id)
  obtain ⟨adds', issued'⟩ := rest _ _ adds.ordered all
  exact ⟨adds.trans adds', issued'⟩

theorem pure {answer : α} (known : ∀ id ∈ mentions answer, id ∈ given) :
    Issues given (pure answer : StateM (Array Node) α) mentions :=
  fun _ ordered within => ⟨⟨fun _ _ found => found, Nat.le_refl _, ordered⟩,
    fun id listed => within id (known id listed)⟩

theorem push {node : Node} (known : ∀ child ∈ node.children, child ∈ given) :
    Issues given (push node) ([·]) := by
  intro nodes ordered within
  refine ⟨⟨fun index other found => ?_, ?_, fun index other found => ?_⟩, fun id listed => ?_⟩
  · have inside := (Array.getElem?_eq_some_iff.mp found).1
    simp only [Arena.push, Array.getElem?_push, if_neg (Nat.ne_of_lt inside)]
    exact found
  · simp [Arena.push]
  · simp only [Arena.push, Array.getElem?_push] at found
    split at found
    · rename_i last
      cases found
      exact fun child listed => last ▸ within child (known child listed)
    · exact ordered index other found
  · cases List.mem_singleton.mp listed
    simp [Arena.push]

end Issues

mutual

theorem pushSchema_issues : ∀ (schema : Schema) (given : List SchemaId),
    Issues given (pushSchema schema) ([·])
  | .boolean, _ | .string, _ | .any, _ | .nonPrimitive, _ | .number _, _ | .literal _, _
  | .enumeration _, _ | .buffer _, _ | .reference _, _ => .push fun _ listed => nomatch listed
  | .array element, given => .bind (pushSchema_issues element given) fun _ =>
      .push (by simp [Node.children])
  | .tuple elements _, given => .bind (pushSchemas_issues elements given) fun _ =>
      .push (by simp +contextual [Node.children])
  | .interface properties index parents, given =>
      .bind (pushProperties_issues properties given) fun _ =>
        .bind (pushIndex_issues index _) fun _ =>
          .bind (pushBranches_issues parents _) fun _ => .push (by simp [Node.children]; grind)
  | .indexedAccess object _, given => .bind (pushSchema_issues object given) fun _ =>
      .push (by simp [Node.children])
  | .union members, given | .intersection members, given =>
      .bind (pushBranches_issues members given) fun _ => .push (by simp +contextual [Node.children])
  | .pick target _, given | .optional target, given | .without target _, given =>
      .bind (pushSchema_issues target given) fun _ =>
        .push (by simp [Node.children, Combinator.children])
  | .overwrite target patch, given => .bind (pushSchema_issues target given) fun _ =>
      .bind (pushSchema_issues patch _) fun _ =>
        .push (by simp [Node.children, Combinator.children])
termination_by structural schema => schema

theorem pushSchemas_issues : ∀ (schemas : List Schema) (given : List SchemaId),
    Issues given (pushSchemas schemas) id
  | [], _ => .pure fun _ listed => nomatch listed
  | schema :: rest, given => .bind (pushSchema_issues schema given) fun _ =>
      .bind (pushSchemas_issues rest _) fun _ => .pure (by simp; grind)
termination_by structural schemas => schemas

theorem pushProperties_issues : ∀ (properties : List PropertyDecl) (given : List SchemaId),
    Issues given (pushProperties properties) (·.map (·.type))
  | [], _ => .pure fun _ listed => nomatch listed
  | ⟨_, _, _, type⟩ :: rest, given => .bind (pushSchema_issues type given) fun _ =>
      .bind (pushProperties_issues rest _) fun _ => .pure (by simp; grind)
termination_by structural properties => properties

theorem pushIndex_issues : ∀ (index : Option IndexDecl) (given : List SchemaId),
    Issues given (pushIndex index) fun signature => (signature.map (·.type)).toList
  | none, _ => .pure fun _ listed => nomatch listed
  | some ⟨_, type⟩, given => .bind (pushSchema_issues type given) fun _ => .pure (by simp)
termination_by structural index => index

theorem pushBranches_issues : ∀ (branches : List Branch) (given : List SchemaId),
    Issues given (pushBranches branches) id
  | [], _ => .pure fun _ listed => nomatch listed
  | ⟨_, type⟩ :: rest, given => .bind (pushSchema_issues type given) fun _ =>
      .bind (pushBranches_issues rest _) fun _ => .pure (by simp; grind)
termination_by structural branches => branches

end

theorem pushSymbols_issues (symbols : List (String × Schema)) (given : List SchemaId) :
    Issues given (pushSymbols symbols) (·.map (·.2)) := by
  induction symbols generalizing given with
  | nil => exact .pure fun _ listed => nomatch listed
  | cons entry rest ih =>
      exact .bind (pushSchema_issues entry.2 given) fun _ => .bind (ih _) fun _ =>
        .pure (by simp; grind)

theorem pushModules_issues (modules : List (String × Table Schema)) (given : List SchemaId) :
    Issues given (pushModules modules) (·.flatMap (·.2.map (·.2))) := by
  induction modules generalizing given with
  | nil => exact .pure fun _ listed => nomatch listed
  | cons entry rest ih =>
      exact .bind (pushSymbols_issues entry.2.entries given) fun _ => .bind (ih _) fun _ =>
        .pure (by simp; grind)

theorem symbol?_listed {arena : Arena} {path symbol : String} {id : SchemaId}
    (found : arena.symbol? path symbol = some id) :
    id ∈ arena.symbols.flatMap (·.2.map (·.2)) := by
  obtain ⟨symbols, known, entry⟩ := Option.bind_eq_some_iff.mp found
  obtain ⟨before, after, modules, -⟩ := List.lookup_eq_some_iff.mp known
  obtain ⟨earlier, later, names, -⟩ := List.lookup_eq_some_iff.mp entry
  exact List.mem_flatMap.mpr ⟨(path, symbols), by simp [modules], by simp [names]⟩

theorem pushSymbols_lookup {symbols : List (String × Schema)} {name : String} {schema : Schema}
    (defined : symbols.lookup name = some schema) (nodes : Array Node) :
    ∃ id, (pushSymbols symbols nodes).1.lookup name = some id := by
  induction symbols generalizing nodes with
  | nil => cases defined
  | cons entry rest ih =>
      obtain ⟨present, own⟩ := entry
      change ∃ id, ((present, (pushSchema own nodes).1) ::
        (pushSymbols rest (pushSchema own nodes).2).1).lookup name = some id
      cases same : name == present with
      | true => exact ⟨_, by rw [List.lookup_cons, same]⟩
      | false =>
          rw [List.lookup_cons, same] at defined
          simpa only [List.lookup_cons, same] using ih defined _

theorem pushModules_lookup {modules : List (String × Table Schema)} {path : String} {table : Table Schema}
    (defined : modules.lookup path = some table) (nodes : Array Node) :
    ∃ before, (pushModules modules nodes).1.lookup path = some (pushSymbols table.entries before).1 := by
  induction modules generalizing nodes with
  | nil => cases defined
  | cons entry rest ih =>
      obtain ⟨present, own⟩ := entry
      change ∃ before, ((present, (pushSymbols own.entries nodes).1) ::
        (pushModules rest (pushSymbols own.entries nodes).2).1).lookup path = _
      cases same : path == present with
      | true =>
          rw [List.lookup_cons, same] at defined
          cases defined
          exact ⟨nodes, by rw [List.lookup_cons, same]⟩
      | false =>
          rw [List.lookup_cons, same] at defined
          simpa only [List.lookup_cons, same] using ih defined _

/-- Every symbol of the registry has its node. -/
theorem exists_symbol? {registry : Registry} {path symbol : String} {schema : Schema}
    (defined : registry.get? path symbol = some schema) :
    ∃ id, (ofRegistry registry).symbol? path symbol = some id := by
  obtain ⟨table, module, entry⟩ := Option.bind_eq_some_iff.mp defined
  obtain ⟨before, listed⟩ := pushModules_lookup module #[.any, .literal .undefined]
  obtain ⟨id, named⟩ := pushSymbols_lookup entry before
  exact ⟨id, Option.bind_eq_some_iff.mpr ⟨_, listed, named⟩⟩

theorem prelude_ordered : Ordered #[.any, .literal .undefined] := by
  intro index node found
  match index with
  | 0 | 1 =>
      cases found
      exact nofun
  | index + 2 => simp at found

theorem ofRegistry_adds (registry : Registry) :
    Adds #[.any, .literal .undefined] (ofRegistry registry).nodes ∧
      Within (ofRegistry registry).nodes
        ((ofRegistry registry).symbols.flatMap (·.2.map (·.2))) :=
  pushModules_issues registry.modules.entries [] _ prelude_ordered fun _ listed => nomatch listed

theorem intern_adds {arena : Arena} (ordered : Ordered arena.nodes) (schema : Schema) :
    Adds arena.nodes (arena.intern schema).2.nodes ∧
      (arena.intern schema).1.index < (arena.intern schema).2.size := by
  obtain ⟨adds, issued⟩ := pushSchema_issues schema [] arena.nodes ordered fun _ listed =>
    nomatch listed
  exact ⟨adds, issued _ (List.mem_singleton_self _)⟩

theorem le_intern {arena : Arena} (ordered : Ordered arena.nodes) (schema : Schema) :
    arena ≤ (arena.intern schema).2 :=
  ⟨rfl, fun id node found => (intern_adds ordered schema).1.kept id.index node found⟩

end Conform.Arena

namespace Conform.ResolverState

variable {core : Nat} {state : ResolverState}

/-- The arena of a registry, with nothing remembered yet. -/
theorem ofRegistry_sound (registry : Registry) :
    ResolverState.Sound (Arena.ofRegistry registry).size (.ofArena (.ofRegistry registry)) := by
  obtain ⟨adds, within⟩ := Arena.ofRegistry_adds registry
  refine
    { ordered := fun id node found => adds.ordered id.index node found
      symbols := fun path symbol id found => within id (Arena.symbol?_listed found)
      undefined := adds.kept 1 _ rfl
      undefined_core := adds.size_le
      core_le := Nat.le_refl _
      shapes := fun older id shape entry => ?_
      projections := fun _ _ known => nomatch known
      distributions := fun _ _ known => nomatch known
      distributions_injective := fun _ _ _ known => nomatch known
      foreign := fun _ _ known => nomatch known
      history := .start fun _ => rfl }
  cases List.suffix_nil.mp entry

theorem Sound.ordered_nodes (sound : state.Sound core) : Arena.Ordered state.arena.nodes :=
  fun index node found => sound.ordered ⟨index⟩ node found

theorem Sound.intern (sound : state.Sound core) (schema : Schema) :
    ResolverState.Sound core { state with arena := (state.arena.intern schema).2 } :=
  sound.grow_arena (Arena.le_intern sound.ordered_nodes schema) fun id node found =>
    .inr ((Arena.intern_adds sound.ordered_nodes schema).1.ordered id.index node found)

/-- The same nodes with nothing remembered. -/
theorem Sound.forget (sound : state.Sound core) :
    ResolverState.Sound core (.ofArena state.arena) := by
  refine
    { ordered := sound.ordered
      symbols := sound.symbols
      undefined := sound.undefined
      undefined_core := sound.undefined_core
      core_le := sound.core_le
      shapes := fun older id shape entry => ?_
      projections := fun _ _ known => nomatch known
      distributions := fun _ _ known => nomatch known
      distributions_injective := fun _ _ _ known => nomatch known
      foreign := fun _ _ known => nomatch known
      history := .start fun _ => rfl }
  cases List.suffix_nil.mp entry

theorem forget_le (state : ResolverState) : .ofArena state.arena ≤ state :=
  ⟨le_refl _, Memo.empty_le _, Memo.empty_le _, Memo.empty_le _, Memo.empty_le _⟩

end Conform.ResolverState
