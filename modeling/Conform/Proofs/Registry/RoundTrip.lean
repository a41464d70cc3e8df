import Conform.Proofs.Json.Grammar
import Conform.Proofs.Schema.Decoded
import Conform.Proofs.Schema.Printable
import Conform.Registry.Load

/-! A registry is read back from its text.  The members of its document are the entries
of its tables in their order, so inserting them one after the other builds the same
tables; a registry that was read from text has text that can be read again. -/

namespace Conform

namespace Table

variable {α : Type} {name : String} {value : α} {entries : List (String × α)} {table : Table α}

theorem ext_entries {left right : Table α} (same : left.entries = right.entries) : left = right := by
  cases left
  cases right
  cases same
  rfl

theorem insertEntry_last (above : ∀ entry ∈ entries, entry.1 < name) :
    insertEntry name value entries = entries ++ [(name, value)] := by
  induction entries with
  | nil => rfl
  | cons entry rest ih =>
      obtain ⟨present, old⟩ := entry
      rw [List.forall_mem_cons] at above
      have after : ¬ name < present := fun before => String.lt_irrefl _ (String.lt_trans before above.1)
      have other : present ≠ name := fun same => String.lt_irrefl _ (same ▸ above.1)
      rw [insertEntry, if_neg after, if_neg other, ih above.2, List.cons_append]

theorem entries_foldl (entries : List (String × α)) (table : Table α)
    (sorted : (table.entries ++ entries).Pairwise fun left right => left.1 < right.1) :
    (entries.foldl (fun table (name, value) => table.insert name value) table).entries =
      table.entries ++ entries := by
  induction entries generalizing table with
  | nil => simp
  | cons entry rest ih =>
      have above : ∀ present ∈ table.entries, present.1 < entry.1 := fun present listed =>
        (List.pairwise_append.mp sorted).2.2 present listed entry (List.mem_cons_self ..)
      have inserted : (table.insert entry.1 entry.2).entries = table.entries ++ [entry] :=
        insertEntry_last above
      have appended : table.entries ++ entry :: rest = (table.insert entry.1 entry.2).entries ++ rest := by
        simp [inserted]
      rw [List.foldl_cons, ih _ (appended ▸ sorted), appended]

theorem ofList_entries (table : Table α) : ofList table.entries = table :=
  ext_entries (entries_foldl table.entries empty table.sorted)

theorem mem_foldl {entry : String × α}
    (listed : entry ∈ (entries.foldl (fun table (name, value) => table.insert name value) table).entries) :
    entry ∈ table.entries ∨ entry ∈ entries := by
  induction entries generalizing table with
  | nil => exact .inl listed
  | cons first rest ih =>
      rcases ih listed with inserted | later
      · rcases mem_insertEntry inserted with rfl | present
        · exact .inr (List.mem_cons_self ..)
        · exact .inl present
      · exact .inr (List.mem_cons_of_mem _ later)

theorem mem_ofList {entry : String × α} (listed : entry ∈ (ofList entries).entries) : entry ∈ entries :=
  (mem_foldl listed).resolve_left nofun

end Table

namespace Registry

variable {registry : Registry} {json : Json} {text : String}

/-- A number occurs in a schema of the registry. -/
def Mentions (registry : Registry) (number : Binary64) : Prop :=
  ∃ path symbol schema, (path, symbol, schema) ∈ registry.symbols ∧ schema.Mentions number

theorem mem_symbols {path symbol : String} {schema : Schema} :
    (path, symbol, schema) ∈ registry.symbols ↔
      ∃ table, (path, table) ∈ registry.modules.entries ∧ (symbol, schema) ∈ table.entries := by
  simp [symbols]

section

variable {α : Type} {read : Json → Option α} {write : α → Json}

/-- An object with the values of a table as its members. -/
theorem readMembers_written {table : Table α}
    (each : ∀ entry ∈ table.entries, read (write entry.2) = some entry.2) :
    (readMembers read (.object (table.entries.map fun (name, value) => (name, write value)))).map
      Table.ofList = some table := by
  have members : readMembers read (.object (table.entries.map fun (name, value) => (name, write value))) =
      some table.entries :=
    mapM_written fun entry listed => by
      dsimp only
      rw [each entry listed, Option.map_some]
  rw [members, Option.map_some, Table.ofList_entries]

/-- If a member's value is written with no more nesting than it was read with, so is the
table. -/
theorem readMembers_keeps {table : Table α} {good : α → Prop}
    (keeps : ∀ part value, part.Finite → read part = some value →
      (write value).depth ≤ part.depth ∧ good value)
    (finite : json.Finite) (given : (readMembers read json).map Table.ofList = some table) :
    (Json.object (table.entries.map fun (name, value) => (name, write value))).depth ≤ json.depth ∧
      ∀ entry ∈ table.entries, good entry.2 := by
  obtain ⟨values, found, rfl⟩ := Option.map_eq_some_iff.mp given
  cases finite with
  | @object members each =>
      have kept : ∀ entry ∈ (Table.ofList values).entries,
          (write entry.2).depth ≤ Json.depthOfMembers members ∧ good entry.2 := by
        intro entry listed
        obtain ⟨⟨name, part⟩, inside, read⟩ := mem_of_mapM found entry (Table.mem_ofList listed)
        obtain ⟨value, reads, rfl⟩ := Option.map_eq_some_iff.mp read
        obtain ⟨nested, fine⟩ := keeps part value (each _ inside) reads
        exact ⟨Nat.le_trans nested (Json.depth_member inside), fine⟩
      refine ⟨?_, fun entry listed => (kept entry listed).2⟩
      rw [Json.depth, Json.depth, Nat.add_le_add_iff_right, Json.depthOfMembers_le, List.forall_mem_map]
      exact fun entry listed => (kept entry listed).1
  | _ => cases found

end

theorem ofJson?_eq (json : Json) :
    ofJson? json = ((readMembers readModule json).map Table.ofList).map Registry.mk := by
  rw [Option.map_map]
  rfl

theorem ofJson?_toJson (registry : Registry) : ofJson? registry.toJson = some registry := by
  have module (table : Table Schema) : readModule (moduleJson table) = some table :=
    readMembers_written fun entry _ => entry.2.ofJson?_toJson
  have modules : (readMembers readModule registry.toJson).map Table.ofList = some registry.modules :=
    readMembers_written fun entry _ => module entry.2
  rw [ofJson?_eq, modules, Option.map_some]

/-- A registry that is read takes its nesting and its numbers from the document. -/
theorem ofJson?_keeps (finite : json.Finite) (read : ofJson? json = some registry) :
    registry.toJson.depth ≤ json.depth ∧
      ∀ number, registry.Mentions number → number.isFinite = true := by
  rw [ofJson?_eq] at read
  obtain ⟨modules, given, rfl⟩ := Option.map_eq_some_iff.mp read
  have module (part : Json) (table : Table Schema) (finite : part.Finite)
      (read : readModule part = some table) :
      (moduleJson table).depth ≤ part.depth ∧ ∀ entry ∈ table.entries, entry.2.NumbersFinite :=
    readMembers_keeps (fun _ _ finite read => Schema.ofJson?_keeps finite read) finite read
  obtain ⟨nested, finite⟩ := readMembers_keeps module finite given
  refine ⟨nested, ?_⟩
  rintro number ⟨path, symbol, schema, listed, mentions⟩
  obtain ⟨table, here, inside⟩ := mem_symbols.mp listed
  exact finite _ here _ inside number mentions

theorem printable_toJson (reads : ∀ number, registry.Mentions number → number.ReadsBack) :
    registry.toJson.Printable := by
  refine .object (List.forall_mem_map.mpr fun (path, table) module => ?_)
  refine .object (List.forall_mem_map.mpr fun (symbol, schema) listed => ?_)
  apply schema.printable_toJson
  exact fun number mentions =>
    reads number ⟨path, symbol, schema, mem_symbols.mpr ⟨table, module, listed⟩, mentions⟩

/-- A registry is read from its text when its numbers are. -/
theorem ofText?_toText (reads : ∀ number, registry.Mentions number → number.ReadsBack)
    (nested : registry.toJson.depth ≤ Json.maxDepth) : ofText? registry.toText = some registry := by
  rw [ofText?, toText, Json.parse_pretty (printable_toJson reads) nested, Option.bind_some, ofJson?_toJson]

/-- The document form of registries loses nothing.  Every registry of finite numbers, not
nested too deeply, loads from its text; and what loads from any text loads again from its
own text.  Both are up to the notation of numbers: a number counts only if its text is
read as the number. -/
theorem text_round_trip :
    (∀ registry : Registry, (∀ number, registry.Mentions number → number.isFinite = true) →
      registry.toJson.depth ≤ Json.maxDepth →
      (∀ number, registry.Mentions number → number.isFinite = true → number.ReadsBack) →
      loadJson registry.toText = .ok registry) ∧
    ∀ text registry, loadJson text = .ok registry →
      (∀ number, registry.Mentions number → number.isFinite = true → number.ReadsBack) →
      loadJson registry.toText = .ok registry := by
  have loads {text : String} {registry : Registry} (read : ofText? text = some registry) :
      loadJson text = .ok registry := by
    rw [loadJson, read]
  refine ⟨fun registry finite nested reads => ?_, fun text registry loaded reads => ?_⟩
  · have printed := fun number mentions => reads number mentions (finite number mentions)
    exact loads (ofText?_toText printed nested)
  · unfold loadJson at loaded
    split at loaded
    next found read =>
      cases loaded
      obtain ⟨json, parses, read⟩ := Option.bind_eq_some_iff.mp read
      obtain ⟨nested, finite⟩ := ofJson?_keeps (Json.parse_finite parses) read
      apply loads
      apply ofText?_toText fun number mentions => reads number mentions (finite number mentions)
      exact Nat.le_trans nested (Json.depth_parse parses)
    · cases loaded

/-- One symbol that accepts a half and the absence of a value. -/
def halves : Registry :=
  empty.insert "shapes" "Half"
    (.union (Branch.numbered [.literal (.number ⟨0x3FE0000000000000⟩), .literal .undefined]))

theorem halves_mentions {number : Binary64} (mentions : halves.Mentions number) :
    number = ⟨0x3FE0000000000000⟩ := by
  obtain ⟨path, symbol, schema, listed, mentions⟩ := mentions
  cases List.mem_singleton.mp listed
  cases mentions with
  | inside child mentions =>
      rcases List.mem_cons.mp child with rfl | child
      · cases mentions with
        | literal => rfl
        | inside deeper => cases deeper
      · cases List.mem_singleton.mp child
        cases mentions with
        | inside deeper => cases deeper

theorem text_round_trip_halves :
    loadJson halves.toText = .ok halves ∧
      ∃ registry, loadJson "\x7b\"a\":\x7b\x7d\x7d" = .ok registry ∧
        loadJson registry.toText = .ok registry := by
  have reads : Binary64.ReadsBack ⟨0x3FE0000000000000⟩ := by decide +kernel
  have shallow : halves.toJson.depth ≤ Json.maxDepth := by decide +kernel
  have blank : loadJson "\x7b\"a\":\x7b\x7d\x7d" = .ok ⟨Table.empty.insert "a" .empty⟩ := by rfl
  refine ⟨?_, ⟨⟨Table.empty.insert "a" .empty⟩, blank, ?_⟩⟩
  · refine text_round_trip.1 halves (fun number mentions => ?_) shallow fun number mentions _ => ?_
    · rw [halves_mentions mentions]
      decide +kernel
    · rw [halves_mentions mentions]
      exact reads
  · refine text_round_trip.2 _ _ blank fun number mentions _ => ?_
    obtain ⟨path, symbol, schema, listed, -⟩ := mentions
    exact absurd listed List.not_mem_nil

end Registry

end Conform
