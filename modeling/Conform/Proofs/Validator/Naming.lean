import Conform.Proofs.Arena.Faithful
import Conform.Proofs.Resolver.Projected
import Conform.Proofs.Validator.Order

/-! Names of symbols.  A reference is cut at its last separator, which leaves one path and one
name; it leads where a lookup of the two leads, and fails as the lookup does. -/

namespace Conform

namespace Text

variable {separator : Char} {characters before after : List Char}

theorem splitLast_eq_none_iff : splitLast separator characters = none ↔ separator ∉ characters := by
  induction characters with
  | nil => simp [splitLast]
  | cons character rest ih =>
      simp only [splitLast, List.mem_cons, not_or]
      cases cut : splitLast separator rest with
      | some parts => simp [← ih, cut]
      | none => simp [← ih, cut, eq_comm]

theorem splitLast_append (before : List Char) (absent : separator ∉ after) :
    splitLast separator (before ++ separator :: after) = some (before, after) := by
  induction before with
  | nil => simp [splitLast, splitLast_eq_none_iff.mpr absent]
  | cons character rest ih => simp [splitLast, ih]

/-- The cut is the one after which the separator does not occur. -/
theorem splitLast_eq_some_iff : splitLast separator characters = some (before, after) ↔
    characters = before ++ separator :: after ∧ separator ∉ after := by
  constructor
  · intro cut
    induction characters generalizing before with
    | nil => cases cut
    | cons character rest ih =>
        simp only [splitLast] at cut
        split at cut
        · next inner =>
            cases cut
            obtain ⟨rfl, absent⟩ := ih inner
            exact ⟨rfl, absent⟩
        · next uncut =>
            split at cut
            · next same =>
                cases cut
                exact ⟨by rw [same, List.nil_append], splitLast_eq_none_iff.mp uncut⟩
            · cases cut
  · intro joined
    obtain ⟨rfl, absent⟩ := joined
    exact splitLast_append before absent

end Text

namespace Address

variable {address other : Address} {target : String}

/-- A text is the path and the name of a symbol, with a separator between them. -/
structure Names (address : Address) (target : String) : Prop where
  path_nonempty : address.path ≠ ""
  symbol_nonempty : address.symbol ≠ ""
  symbol_plain : '/' ∉ address.symbol.toList
  target_eq : target = address.path ++ "/" ++ address.symbol

theorem ofTarget?_eq_some_iff : ofTarget? target = some address ↔ address.Names target := by
  constructor
  · intro parsed
    unfold ofTarget? at parsed
    split at parsed
    · next path symbol cut =>
        split at parsed
        · cases parsed
        · next inhabited =>
            cases parsed
            obtain ⟨joined, plain⟩ := Text.splitLast_eq_some_iff.mp cut
            simp only [Bool.or_eq_true, List.isEmpty_iff, not_or] at inhabited
            refine ⟨by simpa using inhabited.1, by simpa using inhabited.2, by simpa using plain, ?_⟩
            exact String.toList_inj.mp (by simp [joined])
    · cases parsed
  · intro names
    obtain ⟨path_nonempty, symbol_nonempty, plain, rfl⟩ := names
    have cut : Text.splitLast '/' (address.path ++ "/" ++ address.symbol).toList =
        some (address.path.toList, address.symbol.toList) := by
      simpa using Text.splitLast_append address.path.toList plain
    simp only [ofTarget?, cut]
    simp [path_nonempty, symbol_nonempty]

theorem ofTarget?_eq_none_iff : ofTarget? target = none ↔ ∀ address : Address, ¬ address.Names target := by
  simp only [← ofTarget?_eq_some_iff, Option.eq_none_iff_forall_ne_some, ne_eq]

theorem Names.unique (names : address.Names target) (names' : other.Names target) : address = other :=
  Option.some.inj ((ofTarget?_eq_some_iff.mpr names).symm.trans (ofTarget?_eq_some_iff.mpr names'))

theorem Names.exists_iff {holds : Address → Prop} (names : address.Names target) :
    (∃ other : Address, other.Names target ∧ holds other) ↔ holds address :=
  ⟨fun ⟨_, names', here⟩ => names.unique names' ▸ here, fun here => ⟨address, names, here⟩⟩

end Address

namespace Arena

variable {registry : Registry} {arena : Arena} {address other : Address} {target : String}
  {id next : SchemaId}

theorem named_of_names (names : address.Names target) : arena.named target =
    match arena.symbol? address.path address.symbol with
    | some id => .ok id
    | none => .error (.missingTarget target) := by
  cases found : arena.symbol? address.path address.symbol <;>
    simp only [named, Address.ofTarget?_eq_some_iff.mpr names, found]

theorem named_of_nameless (nameless : ∀ address : Address, ¬ address.Names target) :
    arena.named target = .error (.malformedTarget target) := by
  rw [named, Address.ofTarget?_eq_none_iff.mpr nameless]

theorem named_eq_ok_iff : arena.named target = .ok next ↔ ∃ address : Address,
    address.Names target ∧ arena.symbol? address.path address.symbol = some next := by
  by_cases nameable : ∃ address : Address, address.Names target
  · obtain ⟨address, names⟩ := nameable
    rw [named_of_names names, names.exists_iff]
    cases arena.symbol? address.path address.symbol <;> simp
  · have nameless := not_exists.mp nameable
    simp [named_of_nameless nameless, nameless]

theorem named_eq_malformed_iff : arena.named target = .error (.malformedTarget target) ↔
    ∀ address : Address, ¬ address.Names target := by
  refine ⟨fun malformed address names => ?_, named_of_nameless⟩
  rw [named_of_names names] at malformed
  split at malformed <;> cases malformed

theorem named_eq_missing_iff : arena.named target = .error (.missingTarget target) ↔
    ∃ address : Address, address.Names target ∧ arena.symbol? address.path address.symbol = none := by
  by_cases nameable : ∃ address : Address, address.Names target
  · obtain ⟨address, names⟩ := nameable
    rw [named_of_names names, names.exists_iff]
    cases arena.symbol? address.path address.symbol <;> simp
  · have nameless := not_exists.mp nameable
    simp [named_of_nameless nameless, nameless]

/-- Two symbols with the same root are one symbol. -/
theorem symbol?_injective {path symbol path' symbol' : String}
    (found : (ofRegistry registry).symbol? path symbol = some id)
    (found' : (ofRegistry registry).symbol? path' symbol' = some id) :
    path = path' ∧ symbol = symbol' := by
  obtain ⟨block, listed, address, root⟩ := Registry.block_of_symbol? found
  obtain ⟨block', listed', address', root'⟩ := Registry.block_of_symbol? found'
  have apart {first second : Block} (listed : second ∈ registry.blocks) (ahead : first.Precedes second) :
      first.root.index < second.root.index := by
    have last : first.root.index + 1 = first.stop := pushSchema_last first.schema first.before
    have fresh : second.start ≤ second.root.index :=
      pushSchema_fresh second.schema second.before (Registry.block_adds listed).1.ordered
    have := ahead.stop_le
    omega
  rcases Registry.blocks_apart listed listed' with rfl | ahead | ahead
  · exact Address.mk.inj (address.symm.trans address')
  · have := apart listed' ahead
    rw [root, root'] at this
    exact (Nat.lt_irrefl _ this).elim
  · have := apart listed ahead
    rw [root, root'] at this
    exact (Nat.lt_irrefl _ this).elim

end Arena

namespace Validator

open Run Resolver

variable {registry : Registry} {options : Options} {validator : Validator} {path symbol target : String}
  {id next resolved : SchemaId} {answer other : Except SchemaError (Option SchemaId)} {error : SchemaError}

theorem lookup_found (found : validator.state.arena.symbol? path symbol = some id) :
    validator.lookup path symbol = (.ok id, validator) := by
  simp only [Validator.lookup, perform, lookup_defined found]

theorem lookup_unknown (missing : validator.state.arena.symbol? path symbol = none) :
    validator.lookup path symbol = (.error (.unknownPath path), validator) ∨
      validator.lookup path symbol = (.error (.unknownSymbol path symbol), validator) := by
  cases module : validator.state.arena.hasModule path with
  | false =>
      left
      simp only [Validator.lookup, perform, Resolver.lookup, bind_ok (read_apply _), module]
      rfl
  | true =>
      right
      simp only [Validator.lookup, perform, Resolver.lookup, bind_ok (read_apply _), module,
        if_true, missing]
      rfl

theorem lookup_eq_ok_iff : validator.lookup path symbol = (.ok id, validator) ↔
    validator.state.arena.symbol? path symbol = some id := by
  refine ⟨fun found => ?_, lookup_found⟩
  cases present : validator.state.arena.symbol? path symbol with
  | none =>
      rcases lookup_unknown present with unknown | unknown <;> cases found.symm.trans unknown
  | some other =>
      cases found.symm.trans (lookup_found present)
      rfl

theorem lookup_eq_unknown_iff :
    (validator.lookup path symbol = (.error (.unknownPath path), validator) ∨
        validator.lookup path symbol = (.error (.unknownSymbol path symbol), validator)) ↔
      validator.state.arena.symbol? path symbol = none := by
  refine ⟨fun unknown => ?_, lookup_unknown⟩
  cases present : validator.state.arena.symbol? path symbol with
  | none => rfl
  | some id =>
      rw [lookup_found present] at unknown
      rcases unknown with unknown | unknown <;> cases unknown

/-- What the first hop from a node comes to, whatever indexed accesses stand for.  It adds
nothing. -/
def FirstHop (validator : Validator) (id : SchemaId) (answer : Except SchemaError (Option SchemaId)) :
    Prop :=
  ∀ project, hop project id validator.state = (answer, validator.state)

theorem firstHop_iff (node : validator.state.arena.get? id = some (.reference target)) :
    validator.FirstHop id answer ↔ answer = (validator.state.arena.named target).map some := by
  constructor
  · intro hops
    have ran := (hops fun id _ _ => pure id).symm.trans (hop_reference node _)
    exact congrArg Prod.fst ran
  · intro same project
    rw [same]
    exact hop_reference node project

theorem firstHop_ok_iff (node : validator.state.arena.get? id = some (.reference target)) :
    validator.FirstHop id (.ok (some next)) ↔ validator.state.arena.named target = .ok next := by
  rw [firstHop_iff node]
  cases validator.state.arena.named target <;> simp [Except.map, eq_comm]

theorem firstHop_error_iff (node : validator.state.arena.get? id = some (.reference target)) :
    validator.FirstHop id (.error error) ↔ validator.state.arena.named target = .error error := by
  rw [firstHop_iff node]
  cases validator.state.arena.named target <;> simp [Except.map, eq_comm]

section

variable (positive : 0 < validator.options.maxDepth)
  (node : validator.state.arena.get? id = some (.reference target))

include positive node

/-- Resolutions follow a chain, with at least one hop left. -/
theorem resolve_eq_follow : ∃ project more, ∀ id, validator.resolve id =
    validator.perform (follow project (more + 1) [] id) := by
  obtain ⟨steps, same⟩ := Nat.exists_eq_add_one.mpr positive
  obtain ⟨more, size⟩ : ∃ more, validator.state.arena.size = more + 1 :=
    Nat.exists_eq_add_of_le' (Nat.lt_of_le_of_lt (Nat.zero_le _) (Arena.index_lt_size node))
  refine ⟨project (resolveWithin validator.options.maxDepth steps)
    (flattenWithin validator.options.maxDepth steps []), more, fun id => ?_⟩
  have ran := resolveWithin_succ validator.options.maxDepth steps id validator.state
  rw [← same, size] at ran
  simp only [Validator.resolve, perform, Resolver.resolve, ran]

theorem resolve_of_firstHop_error (hops : validator.FirstHop id (.error error)) :
    validator.resolve id = (.error error, validator) := by
  obtain ⟨project, more, resolves⟩ := resolve_eq_follow positive node
  have stuck : follow project (more + 1) [] id validator.state = (.error error, validator.state) := by
    rw [follow_unmet (by simp)]
    exact bind_error (hops project)
  simp only [resolves, perform, stuck]

theorem resolve_of_firstHop_ok (hops : validator.FirstHop id (.ok (some next)))
    (answer : (validator.resolve id).1 = .ok resolved) : validator.resolve next = validator.resolve id := by
  obtain ⟨project, more, resolves⟩ := resolve_eq_follow positive node
  rw [resolves] at answer
  obtain ⟨after, ran⟩ : ∃ after, follow project (more + 1) [] id validator.state =
      (.ok resolved, after) := ⟨_, Prod.ext answer rfl⟩
  have onward := ran
  rw [follow_unmet (by simp), bind_ok (hops project)] at onward
  have eased := follow_eases onward (Nat.le_add_right more 1) (List.nil_subset _)
  simp only [resolves, perform, eased, ran]

end

/-- A reference leads where a lookup of the symbol that its target names leads, and fails if the
target names none, or one that a lookup does not find. -/
structure HopsAsNamed (validator : Validator) (id : SchemaId) (target : String) : Prop where
  found (next : SchemaId) : validator.FirstHop id (.ok (some next)) ↔ ∃ address : Address,
    address.Names target ∧ validator.lookup address.path address.symbol = (.ok next, validator)
  malformed : validator.FirstHop id (.error (.malformedTarget target)) ↔
    ∀ address : Address, ¬ address.Names target
  missing : validator.FirstHop id (.error (.missingTarget target)) ↔ ∃ address : Address,
    address.Names target ∧
      (validator.lookup address.path address.symbol = (.error (.unknownPath address.path), validator) ∨
        validator.lookup address.path address.symbol =
          (.error (.unknownSymbol address.path address.symbol), validator))

theorem hopsAsNamed (node : validator.state.arena.get? id = some (.reference target)) :
    validator.HopsAsNamed id target where
  found _ := by simp only [firstHop_ok_iff node, Arena.named_eq_ok_iff, lookup_eq_ok_iff]
  malformed := by rw [firstHop_error_iff node, Arena.named_eq_malformed_iff]
  missing := by simp only [firstHop_error_iff node, Arena.named_eq_missing_iff, lookup_eq_unknown_iff]

/-- The root of a symbol is that of no other, so only the references that name the symbol lead
there. -/
theorem firstHop_root_iff {root : SchemaId} (reachable : Reachable registry options validator)
    (found : (Arena.ofRegistry registry).symbol? path symbol = some root)
    (node : validator.state.arena.get? id = some (.reference target)) :
    validator.FirstHop id (.ok (some root)) ↔ (⟨path, symbol⟩ : Address).Names target := by
  have same := Arena.symbol?_mono (ResolverState.arena_le reachable.advances.grown)
  rw [firstHop_ok_iff node, Arena.named_eq_ok_iff]
  constructor
  · intro leads
    obtain ⟨address, names, found'⟩ := leads
    obtain ⟨rfl, rfl⟩ := Arena.symbol?_injective found ((same _ _).symm.trans found')
    exact names
  · intro names
    exact ⟨_, names, (same path symbol).trans found⟩

/-- A target names one symbol at most, the one that it is put together from.  A reference leads to
the root that a lookup of this symbol answers, and no other reference leads there; resolution goes
on from the root, or fails as the first hop does. -/
theorem references_lead_where_lookups_do (reachable : Reachable registry options validator) :
    (∀ target, (∀ address, Address.ofTarget? target = some address ↔ address.Names target) ∧
      (Address.ofTarget? target = none ↔ ∀ address : Address, ¬ address.Names target) ∧
      ∀ address other : Address, address.Names target → other.Names target → address = other) ∧
    (∀ id target, validator.state.arena.get? id = some (.reference target) →
      validator.HopsAsNamed id target ∧
      (0 < options.maxDepth →
        (∀ error, validator.FirstHop id (.error error) →
          validator.resolve id = (.error error, validator)) ∧
        ∀ next resolved, validator.FirstHop id (.ok (some next)) →
          (validator.resolve id).1 = .ok resolved → validator.resolve next = validator.resolve id)) ∧
    ∀ path symbol schema, registry.get? path symbol = some schema →
      ∃ root, validator.lookup path symbol = (.ok root, validator) ∧
        ∀ id target, validator.state.arena.get? id = some (.reference target) →
          (validator.FirstHop id (.ok (some root)) ↔ (⟨path, symbol⟩ : Address).Names target) := by
  refine ⟨fun target => ?_, fun id target node => ⟨hopsAsNamed node, fun positive => ?_⟩, ?_⟩
  · exact ⟨fun _ => Address.ofTarget?_eq_some_iff, Address.ofTarget?_eq_none_iff,
      fun _ _ => Address.Names.unique⟩
  · rw [← reachable.options_eq] at positive
    exact ⟨fun _ => resolve_of_firstHop_error positive node,
      fun _ _ => resolve_of_firstHop_ok positive node⟩
  · intro path symbol schema defined
    obtain ⟨root, found⟩ := Arena.exists_symbol? defined
    have same := Arena.symbol?_mono (ResolverState.arena_le reachable.advances.grown) path symbol
    exact ⟨root, lookup_found (same.trans found), fun _ _ => firstHop_root_iff reachable found⟩

/-- A symbol with a separator in its name, and the one that a reference put together from it
names. -/
def slashed : Registry :=
  ((((Registry.empty.insert "a" "b/c" .boolean).insert "a" "far" (.reference "a/b/c")).insert "a" "lost"
    (.reference "x/c")).insert "a" "plain" (.reference "c")).insert "a/b" "c" .string

theorem references_lead_where_lookups_do_slashed :
    let validator := Validator.ofRegistry slashed { maxDepth := 1 }
    validator.lookup "a" "b/c" = (.ok ⟨2⟩, validator) ∧
      validator.lookup "a/b" "c" = (.ok ⟨6⟩, validator) ∧
      validator.FirstHop ⟨3⟩ (.ok (some ⟨6⟩)) ∧
      validator.resolve ⟨4⟩ = (.error (.missingTarget "x/c"), validator) ∧
      validator.resolve ⟨5⟩ = (.error (.malformedTarget "c"), validator) := by
  intro validator
  obtain ⟨targets, references, -⟩ :=
    references_lead_where_lookups_do (.refl : Reachable slashed { maxDepth := 1 } validator)
  have found : validator.lookup "a/b" "c" = (.ok ⟨6⟩, validator) := rfl
  obtain ⟨far, -⟩ := references ⟨3⟩ "a/b/c" rfl
  obtain ⟨lost, fails⟩ := references ⟨4⟩ "x/c" rfl
  obtain ⟨plain, fails'⟩ := references ⟨5⟩ "c" rfl
  refine ⟨rfl, found, ?_, ?_, ?_⟩
  · exact (far.found ⟨6⟩).mpr ⟨⟨"a/b", "c"⟩, ((targets "a/b/c").1 _).mp rfl, found⟩
  · exact (fails Nat.one_pos).1 _ (lost.missing.mpr ⟨⟨"x", "c"⟩, ((targets "x/c").1 _).mp rfl, .inl rfl⟩)
  · exact (fails' Nat.one_pos).1 _ (plain.malformed.mpr ((targets "c").2.1.mp rfl))

end Validator

end Conform
