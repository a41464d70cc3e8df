import Mathlib.Data.List.Forall2
import Mathlib.Data.List.Nodup
import Conform.Proofs.Json.Grammar
import Conform.Proofs.Schema.Reading
import Conform.Registry.Load

/-! Documents of a registry that differ in the order of members, or in members that no reader looks
at.  Whatever reads the one reads the other, and in the same way. -/

namespace Conform

/-- What a part of the document of a registry is read as. -/
inductive Role where
  | modules
  | symbols
  | schema
  | property
  | branch
  | enumMember
  | index
  | list (item : Role)
  | other

open Record Schema

/-- The kind that a document is tagged with. -/
def Json.kind? : Json → Option Kind
  | .object members => (members.lookup "type").bind fun tag => readKind true (.ofJson tag)
  | .array (tag :: _) => readKind true (.ofJson tag)
  | _ => none

namespace Role

/-- The fields of a kind, in their order, and what they are read as. -/
def ofKind : Kind → List (String × Role)
  | .boolean | .string | .any | .nonPrimitive => []
  | .number => [("scalarType", .other)]
  | .literal => [("literal", .other)]
  | .enumeration => [("members", .list .enumMember)]
  | .array => [("elementType", .schema)]
  | .tuple => [("elementTypes", .list .schema), ("optionalStartIndex", .other)]
  | .buffer => [("arrayType", .other)]
  | .interface =>
      [("properties", .list .property), ("indexSignature", .index), ("extends", .list .branch)]
  | .reference => [("target", .other)]
  | .indexedAccess => [("objectType", .schema), ("index", .other)]
  | .union | .intersection => [("members", .list .branch)]
  | .pick | .without => [("target", .schema), ("keys", .list .other)]
  | .optional => [("target", .schema)]
  | .overwrite => [("target", .schema), ("overwrite", .schema)]

/-- The fields of a record that is no schema, in their order, and what they are read as. -/
def ofRecord? : Role → Option (List (String × Role))
  | .property => some [("id", .other), ("name", .other), ("optional", .other), ("type", .schema)]
  | .branch => some [("id", .other), ("type", .schema)]
  | .enumMember => some [("id", .other), ("value", .other)]
  | .index => some [("keyType", .other), ("type", .schema)]
  | _ => none

/-- The fields of a record, the tag of a schema among them. -/
def fields? (role : Role) (json : Json) : Option (List (String × Role)) :=
  match role with
  | .schema => json.kind?.map fun kind => ("type", .other) :: ofKind kind
  | role => role.ofRecord?

/-- What a field is read as, by a table of the fields. -/
def under (table : List (String × Role)) (name : String) : Role :=
  (table.lookup name).getD .other

/-- What the member of an object is read as. -/
def member (role : Role) (json : Json) (name : String) : Role :=
  match role with
  | .modules => .symbols
  | .symbols => .schema
  | role => under ((role.fields? json).getD []) name

/-- What an item of an array is read as. -/
def item (role : Role) (json : Json) (position : Nat) : Role :=
  match role with
  | .list item => item
  | role => (((role.fields? json).getD [])[position]?.map (·.2)).getD .other

end Role

/-- A document after changes that mean nothing to its reader: members are put into another order, in
an object without repeated keys; a record gets a member with a plain value under a name that is no
field of it; a part is changed in such a way. -/
inductive Json.Varies : Role → Json → Json → Prop
  | refl {role : Role} (json : Json) : Varies role json json
  | trans {role : Role} {first second third : Json} (before : Varies role first second)
      (after : Varies role second third) : Varies role first third
  | reorder {role : Role} {members others : List (String × Json)} (distinct : (members.map (·.1)).Nodup)
      (order : members.Perm others) : Varies role (.object members) (.object others)
  | extend {role : Role} {members : List (String × Json)} {name : String} {extra : Json}
      {fields : List (String × Role)} (record : role.fields? (.object members) = some fields)
      (unknown : name ∉ fields.map (·.1)) (flat : extra.depth = 0) (readable : extra.isReadable = true) :
      Varies role (.object members) (.object ((name, extra) :: members))
  | item {role : Role} {before after : List Json} {old new : Json}
      (varies : Varies (role.item (.array (before ++ old :: after)) before.length) old new) :
      Varies role (.array (before ++ old :: after)) (.array (before ++ new :: after))
  | member {role : Role} {before after : List (String × Json)} {name : String} {old new : Json}
      (varies : Varies (role.member (.object (before ++ (name, old) :: after)) name) old new) :
      Varies role (.object (before ++ (name, old) :: after)) (.object (before ++ (name, new) :: after))

/-- The second reading has the answer of the first, if that has one. -/
def Upholds {α : Type} (first second : Option α) : Prop :=
  ∀ value, first = some value → second = some value

namespace Upholds

variable {α β : Type} {first second third : Option α} {next other : α → Option β}

theorem refl (first : Option α) : Upholds first first :=
  fun _ found => found

theorem trans (upholds : Upholds first second) (onward : Upholds second third) : Upholds first third :=
  fun value found => onward value (upholds value found)

theorem bind (upholds : Upholds first second) (rest : ∀ value, Upholds (next value) (other value)) :
    Upholds (first >>= next) (second >>= other) := by
  intro value found
  obtain ⟨middle, here, onward⟩ := Option.bind_eq_some_iff.mp found
  exact Option.bind_eq_some_iff.mpr ⟨middle, upholds middle here, rest middle value onward⟩

theorem map (upholds : Upholds first second) (change : α → β) :
    Upholds (first.map change) (second.map change) := by
  intro value found
  obtain ⟨middle, here, rfl⟩ := Option.map_eq_some_iff.mp found
  exact Option.map_eq_some_iff.mpr ⟨middle, upholds middle here, rfl⟩

theorem mapM {read : β → Option α} {items others : List β}
    (each : List.Forall₂ (fun item other => Upholds (read item) (read other)) items others) :
    Upholds (items.mapM read) (others.mapM read) := by
  induction each with
  | nil => exact .refl _
  | cons first _ ih =>
      simp only [List.mapM_cons]
      exact first.bind fun _ => ih.bind fun _ => .refl _

end Upholds

/-- Documents that stand for a name: without parts, or with no more than one key each. -/
inductive Json.Plain : Json → Prop
  | flat {json : Json} (flat : json.depth = 0) : Plain json
  | empty : Plain (.object [])
  | single {key : String} {json : Json} (inner : Plain json) : Plain (.object [(key, json)])

namespace Role

/-- What is read from the first document in this role is read from the second. -/
def Reads : Role → Json → Json → Prop
  | .modules, json, varied => Upholds (Registry.ofJson? json) (Registry.ofJson? varied)
  | .symbols, json, varied => Upholds (Registry.readModule json) (Registry.readModule varied)
  | .schema, json, varied => ∀ levels inner,
      Upholds (readWithin levels inner (.ofJson json)) (readWithin levels inner (.ofJson varied))
  | .property, json, varied => ∀ levels,
      Upholds (readProperty (readWithin levels true) (.ofJson json))
        (readProperty (readWithin levels true) (.ofJson varied))
  | .branch, json, varied => ∀ levels,
      Upholds (readBranch (readWithin levels true) (.ofJson json))
        (readBranch (readWithin levels true) (.ofJson varied))
  | .enumMember, json, varied => Upholds (readEnumMember (.ofJson json)) (readEnumMember (.ofJson varied))
  | .index, json, varied => ∀ levels,
      Upholds (readIndex (readWithin levels true) (.ofJson json))
        (readIndex (readWithin levels true) (.ofJson varied))
  | .list item, json, varied => ∀ items, json = .array items →
      ∃ others, varied = .array others ∧ List.Forall₂ item.Reads items others
  | .other, json, varied => json.Plain → varied = json

/-- The second document does in place of the first. -/
structure Alike (role : Role) (json varied : Json) : Prop where
  depth : varied.depth = json.depth
  flat : json.depth = 0 → varied = json
  readable : json.isReadable = true → varied.isReadable = true
  reads : role.Reads json varied

/-- A reader for this role. -/
def Reader {α : Type} (role : Role) (read : Document → Option α) : Prop :=
  ∀ json varied, role.Reads json varied → Upholds (read (.ofJson json)) (read (.ofJson varied))

variable {α : Type} {role : Role} {read : Document → Option α} {json varied third : Json}

theorem Reads.refl (role : Role) (json : Json) : role.Reads json json := by
  induction role generalizing json with
  | list item ih => exact fun items same => ⟨items, same, List.forall₂_same.mpr fun part _ => ih part⟩
  | other => exact fun _ => rfl
  | modules | symbols | enumMember => exact Upholds.refl _
  | property | branch | index => exact fun _ => .refl _
  | schema => exact fun _ _ => .refl _

theorem Reads.trans (before : role.Reads json varied) (after : role.Reads varied third) :
    role.Reads json third := by
  induction role generalizing json varied third with
  | list item ih =>
      intro items same
      obtain ⟨others, same', each⟩ := before items same
      obtain ⟨thirds, same'', each'⟩ := after others same'
      refine ⟨thirds, same'', ?_⟩
      clear same same' same'' before after
      induction each generalizing thirds with
      | nil =>
          cases each'
          exact .nil
      | cons first _ ih' =>
          cases each' with
          | cons second rest => exact .cons (ih first second) (ih' _ rest)
  | other =>
      intro plain
      cases before plain
      exact after plain
  | modules | symbols | enumMember => exact Upholds.trans before after
  | property | branch | index => exact fun levels => (before levels).trans (after levels)
  | schema => exact fun levels inner => (before levels inner).trans (after levels inner)

theorem Alike.refl (role : Role) (json : Json) : role.Alike json json :=
  ⟨rfl, fun _ => rfl, id, .refl role json⟩

theorem Alike.trans (before : role.Alike json varied) (after : role.Alike varied third) :
    role.Alike json third where
  depth := after.depth.trans before.depth
  flat flat := (after.flat (before.depth.trans flat)).trans (before.flat flat)
  readable readable := after.readable (before.readable readable)
  reads := before.reads.trans after.reads

namespace Reader

theorem schema (levels : Nat) (inner : Bool) : Role.schema.Reader (readWithin levels inner) :=
  fun _ _ reads => reads levels inner

theorem list (reader : role.Reader read) : (Role.list role).Reader (readList read) := by
  intro json varied reads
  cases json with
  | array items =>
      obtain ⟨others, rfl, each⟩ := reads items rfl
      simp only [Document.ofJson, readList, Document.ofJsonItems_eq]
      exact .mapM (List.forall₂_map_left_iff.mpr (List.forall₂_map_right_iff.mpr
        (each.imp fun item varied reads => reader item varied reads)))
  | number value =>
      intro found listed
      cases value with
      | integer value => by_cases negative : value < 0 <;> simp [Document.ofJson, Document.ofNumber, negative, readList] at listed
      | real value => simp [Document.ofJson, Document.ofNumber, readList] at listed
  | _ => exact nofun

/-- A reader of plain values. -/
theorem plain (plain : ∀ json value, read (.ofJson json) = some value → json.Plain) :
    Role.other.Reader read := by
  intro json varied reads value found
  rw [reads (plain json value found)]
  exact found

theorem flat (flat : ∀ document value, read document = some value → document.depth = 0) :
    Role.other.Reader read :=
  .plain fun json value found => .flat ((Document.depth_ofJson json).symm.trans (flat _ value found))

theorem string : Role.other.Reader readString :=
  .flat fun document _ found => by cases document <;> first | rfl | cases found

theorem bool : Role.other.Reader readBool :=
  .flat fun document _ found => by cases document <;> first | rfl | cases found

theorem natural (bound : Nat) : Role.other.Reader (readNatural bound) :=
  .flat fun document _ found => by cases document <;> first | rfl | cases found

theorem id : Role.other.Reader readId := by
  refine .flat fun document value found => ?_
  obtain ⟨_, natural, -⟩ := Option.map_eq_some_iff.mp found
  cases document <;> first | rfl | cases natural

theorem literal : Role.other.Reader readLiteral :=
  .flat fun document _ found => by cases document <;> first | rfl | cases found

theorem enumValue : Role.other.Reader readEnumValue :=
  .flat fun document _ found => by cases document <;> first | rfl | cases found

theorem name (ofName? : String → Option α) (all : List α) : Role.other.Reader (readInnerName ofName? all) := by
  refine .plain fun json value found => ?_
  match json with
  | .null | .bool _ | .number _ | .string _ | .unreadable => exact .flat rfl
  | .object [] => exact .empty
  | .object [(_, .null)] => exact .single (.flat rfl)
  | .object [(_, .object [])] => exact .single .empty
  | .array _ | .object (_ :: _ :: _) | .object [(_, .object (_ :: _))] | .object [(_, .array _)]
  | .object [(_, .bool _)] | .object [(_, .string _)] | .object [(_, .unreadable)] =>
      simp [Document.ofJson, Document.ofJsonMembers, readInnerName] at found
  | .object [(_, .number _)] => exact .single (.flat rfl)

end Reader

end Role

section

variable {α : Type} {entries others : List (String × α)} {name : String} {value : α}

theorem lookup_eq_some_iff_mem (distinct : (entries.map (·.1)).Nodup) :
    entries.lookup name = some value ↔ (name, value) ∈ entries := by
  induction entries with
  | nil => simp
  | cons entry rest ih =>
      obtain ⟨present, own⟩ := entry
      obtain ⟨absent, distinct⟩ := List.nodup_cons.mp distinct
      by_cases same : name = present
      · subst same
        have alone : (name, value) ∉ rest := fun listed =>
          absent (List.mem_map.mpr ⟨(name, value), listed, rfl⟩)
        simp [alone, eq_comm]
      · have differ : (name == present) = false := beq_false_of_ne same
        simp [List.lookup_cons, differ, same, ih distinct]

theorem lookup_perm (distinct : (entries.map (·.1)).Nodup) (order : entries.Perm others) (name : String) :
    entries.lookup name = others.lookup name := by
  have distinct' : (others.map (·.1)).Nodup := (order.map _).nodup_iff.mp distinct
  ext value
  rw [lookup_eq_some_iff_mem distinct, lookup_eq_some_iff_mem distinct', order.mem_iff]

theorem lookup_eq_filter (entries : List (String × α)) (name : String) :
    entries.lookup name = (entries.filter fun entry => entry.1 == name).head?.map (·.2) := by
  induction entries with
  | nil => rfl
  | cons entry rest ih =>
      obtain ⟨present, own⟩ := entry
      by_cases same : name = present
      · simp [same]
      · have differ : (name == present) = false := beq_false_of_ne same
        have differ' : (present == name) = false := beq_false_of_ne (Ne.symm same)
        rw [List.lookup_cons, differ, List.filter_cons_of_neg (by simp [differ']), ← ih]

end

namespace Record

variable {α : Type} {roles : String → Role} {name : String} {fields varied : Fields} {read : Document → Option α}

/-- Under each name the two have the same document, or one that does in place of the other. -/
def Fields.Alike (roles : String → Role) (fields varied : Fields) : Prop :=
  ∀ name, fields.lookup name = varied.lookup name ∨
    ∃ json other, fields.lookup name = some (.ofJson json) ∧ varied.lookup name = some (.ofJson other) ∧
      (roles name).Alike json other

theorem Fields.Alike.refl (fields : Fields) : fields.Alike roles fields :=
  fun _ => .inl rfl

section

variable {role : Role} (alike : fields.Alike roles varied) (reader : role.Reader read)
  (known : roles name = role)

include alike reader known

theorem required_upholds : Upholds (required fields name read) (required varied name read) := by
  unfold required
  rcases alike name with same | ⟨json, other, here, there, alike⟩ <;> subst known
  · rw [same]
    exact .refl _
  · rw [here, there]
    exact reader json other alike.reads

theorem defaulted_upholds {absent : α} :
    Upholds (defaulted fields name absent read) (defaulted varied name absent read) := by
  unfold defaulted
  rcases alike name with same | ⟨json, other, here, there, alike⟩ <;> subst known
  · rw [same]
    exact .refl _
  · rw [here, there]
    exact reader json other alike.reads

theorem nullable_upholds : Upholds (nullable fields name read) (nullable varied name read) := by
  unfold nullable
  rcases alike name with same | ⟨json, other, here, there, alike⟩ <;> subst known
  · rw [same]
    exact .refl _
  · rw [here, there]
    by_cases flat : json.depth = 0
    · cases alike.flat flat
      exact .refl _
    · have deep : Document.ofJson json ≠ .null := fun null => flat (by
        simpa [null, Document.depth] using (Document.depth_ofJson json).symm)
      have deep' : Document.ofJson other ≠ .null := fun null => flat (by
        simpa [null, Document.depth, alike.depth] using (Document.depth_ofJson other).symm)
      split
      next null => exact (deep (Option.some.inj null)).elim
      next given =>
        cases given
        exact (reader json other alike.reads).map some
      next missing => cases missing

end

end Record

namespace Schema

open Role

variable {levels : Nat} {kind : Kind} {fields varied : Fields}

theorem ofFields_upholds (alike : fields.Alike (under (ofKind kind)) varied) :
    Upholds (ofFields (readWithin levels true) kind fields) (ofFields (readWithin levels true) kind varied) := by
  have inner : Role.schema.Reader (readWithin levels true) := .schema levels true
  have properties : (Role.list .property).Reader (readList (readProperty (readWithin levels true))) :=
    .list fun _ _ reads => reads levels
  have branches : (Role.list .branch).Reader (readList (readBranch (readWithin levels true))) :=
    .list fun _ _ reads => reads levels
  have members : (Role.list .enumMember).Reader (readList readEnumMember) := .list fun _ _ reads => reads
  have index : Role.index.Reader (readIndex (readWithin levels true)) := fun _ _ reads => reads levels
  cases kind with
  | boolean | string | any | nonPrimitive => exact .refl _
  | number => exact (nullable_upholds alike (.name _ _) rfl).bind fun _ => .refl _
  | literal => exact (defaulted_upholds alike .literal rfl).bind fun _ => .refl _
  | enumeration =>
      exact (required_upholds alike members rfl).bind fun _ => .refl _
  | array => exact (required_upholds alike inner rfl).bind fun _ => .refl _
  | tuple =>
      exact (required_upholds alike inner.list rfl).bind fun _ =>
        (nullable_upholds alike (.natural _) rfl).bind fun _ => .refl _
  | buffer => exact (nullable_upholds alike (.name _ _) rfl).bind fun _ => .refl _
  | interface =>
      exact (defaulted_upholds alike properties rfl).bind fun _ =>
        (nullable_upholds alike index rfl).bind fun _ =>
          (defaulted_upholds alike branches rfl).bind fun _ => .refl _
  | reference => exact (required_upholds alike .string rfl).bind fun _ => .refl _
  | indexedAccess =>
      exact (required_upholds alike inner rfl).bind fun _ =>
        (required_upholds alike .string rfl).bind fun _ => .refl _
  | union | intersection => exact (required_upholds alike branches rfl).bind fun _ => .refl _
  | pick | without =>
      exact (required_upholds alike inner rfl).bind fun _ =>
        (required_upholds alike (.list .string) rfl).bind fun _ => .refl _
  | optional => exact (required_upholds alike inner rfl).bind fun _ => .refl _
  | overwrite =>
      exact (required_upholds alike inner rfl).bind fun _ =>
        (required_upholds alike inner rfl).bind fun _ => .refl _

end Schema

namespace Record

open Role

variable {roles : String → Role} {name : String} {names : List String} {fields entries others : Fields}

/-- The fields with one of the given names. -/
def Fields.only (names : List String) (entries : Fields) : Fields :=
  entries.filter fun field => names.contains field.1

theorem pickFields_eq_some : pickFields names (named entries) = some fields ↔
    ((entries.only names).map (·.1)).Nodup ∧ entries.only names = fields := by
  have kept : (entries.map fun field => if names.contains field.1 then some field else none).filterMap id =
      entries.only names := by
    rw [List.filterMap_map, Fields.only, ← List.filterMap_eq_filter]
    rfl
  simp only [pickFields, fieldOf_each, Option.bind_eq_bind, Option.bind_some, kept]
  split
  next distinct => rw [Option.some.injEq, and_iff_right distinct]
  next repeated => exact iff_of_false (by simp) fun kept => repeated kept.1

/-- What is picked from the first members has its counterpart among the second. -/
def Picks (names : List String) (roles : String → Role) (entries others : Fields) : Prop :=
  ∀ fields, pickFields names (named entries) = some fields →
    ∃ varied, pickFields names (named others) = some varied ∧ fields.Alike roles varied

theorem Picks.reorder (order : entries.Perm others) : Picks names roles entries others := by
  intro fields picked
  obtain ⟨distinct, rfl⟩ := pickFields_eq_some.mp picked
  have kept : (entries.only names).Perm (others.only names) := order.filter _
  exact ⟨_, pickFields_eq_some.mpr ⟨(kept.map _).nodup_iff.mp distinct, rfl⟩,
    fun name => .inl (lookup_perm distinct kept name)⟩

theorem Picks.extend {document : Document} (unknown : name ∉ names) :
    Picks names roles entries ((name, document) :: entries) := by
  intro fields picked
  have skipped : Fields.only names ((name, document) :: entries) = entries.only names :=
    List.filter_cons_of_neg (by simpa using unknown)
  exact ⟨fields, by rwa [pickFields_eq_some, skipped, ← pickFields_eq_some], .refl _⟩

/-- Lists of fields that differ in one place. -/
theorem Fields.Alike.replace {before after : Fields} {old new : Json} (alike : (roles name).Alike old new) :
    Fields.Alike roles (before ++ (name, .ofJson old) :: after) (before ++ (name, .ofJson new) :: after) := by
  intro key
  rw [List.lookup_append, List.lookup_append]
  cases before.lookup key with
  | some found => exact .inl rfl
  | none =>
      by_cases same : key = name
      · subst same
        exact .inr ⟨old, new, by simp, by simp, alike⟩
      · have differ : (key == name) = false := beq_false_of_ne same
        simp [List.lookup_cons, differ]

theorem Picks.member {before after : List (String × Json)} {old new : Json}
    (alike : name ∈ names → (roles name).Alike old new) :
    Picks names roles (documents (before ++ (name, old) :: after))
      (documents (before ++ (name, new) :: after)) := by
  intro fields picked
  have split (json : Json) : Fields.only names (documents (before ++ (name, json) :: after)) =
      Fields.only names (documents before) ++ Fields.only names ((name, .ofJson json) :: documents after) := by
    simp [documents, Fields.only]
  rw [pickFields_eq_some, split] at picked
  obtain ⟨distinct, rfl⟩ := picked
  by_cases known : name ∈ names
  · have kept (json : Json) : Fields.only names ((name, .ofJson json) :: documents after) =
        (name, .ofJson json) :: Fields.only names (documents after) :=
      List.filter_cons_of_pos (by simpa using known)
    rw [kept] at distinct ⊢
    refine ⟨Fields.only names (documents before) ++ (name, .ofJson new) :: Fields.only names (documents after),
      ?_, .replace (alike known)⟩
    rw [pickFields_eq_some, split, kept]
    exact ⟨by simpa using distinct, rfl⟩
  · have dropped (json : Json) : Fields.only names ((name, .ofJson json) :: documents after) =
        Fields.only names (documents after) :=
      List.filter_cons_of_neg (by simpa using known)
    rw [dropped] at distinct ⊢
    exact ⟨_, by rw [pickFields_eq_some, split, dropped]; exact ⟨distinct, rfl⟩, .refl _⟩

theorem zipFields_item {table : List (String × Role)} (distinct : (table.map (·.1)).Nodup)
    {before after : List Json} {old new : Json}
    (alike : ((table[before.length]?.map Prod.snd).getD Role.other).Alike old new)
    (zipped : zipFields (table.map (·.1)) ((before ++ old :: after).map .ofJson) = some fields) :
    ∃ varied, zipFields (table.map (·.1)) ((before ++ new :: after).map .ofJson) = some varied ∧
      fields.Alike (under table) varied := by
  unfold zipFields at zipped
  split at zipped
  next fits =>
    cases zipped
    have inside : before.length < table.length := by simp at fits; omega
    obtain ⟨first, ⟨name, role⟩, last, rfl, position⟩ : ∃ first field last,
        table = first ++ field :: last ∧ first.length = before.length :=
      ⟨table.take before.length, table[before.length], table.drop (before.length + 1), by simp, by simp; omega⟩
    have here : under (first ++ (name, role) :: last) name = role := by
      have listed : (name, role) ∈ first ++ (name, role) :: last := by simp
      rw [under, (lookup_eq_some_iff_mem distinct).mpr listed, Option.getD_some]
    have alike : (under (first ++ (name, role) :: last) name).Alike old new := by
      rw [here]
      simpa [← position] using alike
    have split (json : Json) : ((first ++ (name, role) :: last).map (·.1)).zip
          ((before ++ json :: after).map Document.ofJson) =
        (first.map (·.1)).zip (before.map Document.ofJson) ++
          (name, Document.ofJson json) :: (last.map (·.1)).zip (after.map Document.ofJson) := by
      rw [List.map_append, List.map_append, List.zip_append (by simp [position])]
      rfl
    refine ⟨_, if_pos (by simpa using fits), ?_⟩
    rw [split, split]
    exact .replace alike
  next => cases zipped

end Record

namespace Role

variable {role : Role} {table : List (String × Role)} {json varied : Json} {kind : Kind} {fields : Fields}

/-- The fields of the first record have their counterparts in the second. -/
def GivesFields (table : List (String × Role)) (json varied : Json) : Prop :=
  ∀ fields, recordFields (table.map (·.1)) (.ofJson json) = some fields →
    ∃ others, recordFields (table.map (·.1)) (.ofJson varied) = some others ∧
      fields.Alike (under table) others

theorem GivesFields.bind {α : Type} {next : Fields → Option α} (gives : GivesFields table json varied)
    (rest : ∀ fields others, fields.Alike (under table) others → Upholds (next fields) (next others)) :
    Upholds (recordFields (table.map (·.1)) (.ofJson json) >>= next)
      (recordFields (table.map (·.1)) (.ofJson varied) >>= next) := by
  intro value found
  obtain ⟨fields, here, onward⟩ := Option.bind_eq_some_iff.mp found
  obtain ⟨others, there, alike⟩ := gives fields here
  exact Option.bind_eq_some_iff.mpr ⟨others, there, rest fields others alike value onward⟩

theorem Reads.of_record (record : role.ofRecord? = some table) (gives : GivesFields table json varied) :
    role.Reads json varied := by
  have inner (levels : Nat) : Role.schema.Reader (readWithin levels true) := .schema levels true
  cases role with
  | property =>
      cases record
      exact fun levels => gives.bind fun fields others alike =>
        (defaulted_upholds alike .id rfl).bind fun _ => (required_upholds alike .string rfl).bind fun _ =>
          (defaulted_upholds alike .bool rfl).bind fun _ =>
            (required_upholds alike (inner levels) rfl).bind fun _ => .refl _
  | branch =>
      cases record
      exact fun levels => gives.bind fun fields others alike =>
        (defaulted_upholds alike .id rfl).bind fun _ =>
          (required_upholds alike (inner levels) rfl).bind fun _ => .refl _
  | enumMember =>
      cases record
      exact gives.bind fun fields others alike =>
        (defaulted_upholds alike .id rfl).bind fun _ => (required_upholds alike .enumValue rfl).bind fun _ => .refl _
  | index =>
      cases record
      exact fun levels => gives.bind fun fields others alike =>
        (required_upholds alike (.name _ _) rfl).bind fun _ =>
          (required_upholds alike (inner levels) rfl).bind fun _ => .refl _
  | _ => cases record

/-- The tag of the first schema and its fields have their counterparts in the second. -/
def GivesTagged (json varied : Json) : Prop :=
  ∀ inner kind fields, tagFields inner (.ofJson json) = some (kind, fields) →
    ∃ others, tagFields inner (.ofJson varied) = some (kind, others) ∧
      fields.Alike (under (ofKind kind)) others

theorem Reads.of_tagged (gives : GivesTagged json varied) : Role.schema.Reads json varied := by
  intro levels inner schema found
  cases levels with
  | zero => cases found
  | succ levels =>
      simp only [readWithin] at found ⊢
      split at found
      next kind fields tagged =>
        obtain ⟨others, there, alike⟩ := gives inner kind fields tagged
        rw [there]
        exact ofFields_upholds alike schema found
      next => cases found

theorem ofKind_names (kind : Kind) : (ofKind kind).map (·.1) = fieldNames kind := by
  cases kind <;> rfl

theorem under_cons {name : String} (other : name ≠ "type") :
    under (("type", .other) :: table) name = under table name := by
  have differ : (name == "type") = false := beq_false_of_ne other
  simp [under, List.lookup_cons, differ]

theorem flat_of_readKind {inner : Bool} {document : Document} (tagged : readKind inner document = some kind) :
    document.depth = 0 := by
  cases document <;> first | rfl | cases tagged

theorem readKind_inner {inner : Bool} {document : Document} (tagged : readKind inner document = some kind) :
    readKind true document = some kind := by
  cases document with
  | string name => exact tagged
  | natural index =>
      cases inner with
      | true => exact tagged
      | false => cases tagged
  | _ => cases tagged

/-- A schema in the object form: one tag, and the fields that belong to it. -/
theorem tagFields_object {inner : Bool} {members : List (String × Json)} :
    tagFields inner (.ofJson (.object members)) = some (kind, fields) ↔
      ∃ tag, members.filter (fun member => member.1 == "type") = [("type", tag)] ∧
        readKind inner (.ofJson tag) = some kind ∧
        kindFields kind (named (documents members)) = some fields := by
  have same (name : String) : (Document.Key.name name == .name "type") = (name == "type") := by
    by_cases tag : name = "type" <;> simp [tag]
  rw [ofJson_object, tagFields]
  generalize given : kindFields = fieldsOf
  simp only [named, documents, List.map_map, List.filter_map, Function.comp_def, same]
  generalize found : members.filter (fun member => member.1 == "type") = tagged
  rcases tagged with _ | ⟨⟨name, tag⟩, _ | _⟩
  · exact iff_of_false (by simp) (by simp)
  · have here : (name, tag) ∈ members.filter fun member => member.1 == "type" := by simp [found]
    have named_type : name = "type" := by simpa using (List.mem_filter.mp here).2
    subst named_type
    simp [Option.bind_eq_some_iff]
  · exact iff_of_false (by simp) (by simp)

theorem kind?_of_tagFields {inner : Bool} (tagged : tagFields inner (.ofJson json) = some (kind, fields)) :
    json.kind? = some kind := by
  match json with
  | .object members =>
      obtain ⟨tag, alone, reads, -⟩ := tagFields_object.mp tagged
      have here : members.lookup "type" = some tag := by rw [lookup_eq_filter, alone]; rfl
      rw [Json.kind?, here]
      exact readKind_inner reads
  | .array (tag :: items) =>
      obtain ⟨found, reads, rest⟩ := Option.bind_eq_some_iff.mp tagged
      obtain ⟨_, -, same⟩ := Option.bind_eq_some_iff.mp rest
      cases same
      exact readKind_inner reads
  | .array [] | .null | .bool _ | .string _ | .unreadable => cases tagged
  | .number value =>
      cases value with
      | integer value => by_cases negative : value < 0 <;> simp [Document.ofJson, Document.ofNumber, negative, tagFields] at tagged
      | real value => cases tagged

theorem kindFields_upholds {entries others : Fields}
    (picks : Picks (fieldNames kind) (under (ofKind kind)) entries others)
    (given : kindFields kind (named entries) = some fields) :
    ∃ varied, kindFields kind (named others) = some varied ∧ fields.Alike (under (ofKind kind)) varied := by
  unfold kindFields at given ⊢
  split at given
  next none =>
    cases given
    exact ⟨[], rfl, .refl _⟩
  next => exact picks fields given

section

variable {name : String} {members others before after : List (String × Json)} {old new extra : Json}

theorem GivesTagged.reorder (order : members.Perm others) : GivesTagged (.object members) (.object others) := by
  intro inner kind fields tagged
  obtain ⟨tag, alone, reads, given⟩ := tagFields_object.mp tagged
  have tags : (others.filter fun member => member.1 == "type") = [("type", tag)] :=
    List.perm_singleton.mp (alone ▸ (order.filter _).symm)
  obtain ⟨varied, there, alike⟩ := kindFields_upholds (.reorder (order.map _)) given
  exact ⟨varied, tagFields_object.mpr ⟨tag, tags, reads, there⟩, alike⟩

theorem GivesTagged.extend (record : Role.schema.fields? (.object members) = some table)
    (unknown : name ∉ table.map (·.1)) : GivesTagged (.object members) (.object ((name, extra) :: members)) := by
  intro inner kind fields tagged
  obtain ⟨tag, alone, reads, given⟩ := tagFields_object.mp tagged
  rw [fields?, kind?_of_tagFields tagged] at record
  cases record
  rw [List.map_cons, ofKind_names, List.mem_cons, not_or] at unknown
  have tags : ((name, extra) :: members).filter (fun member => member.1 == "type") = [("type", tag)] := by
    rw [List.filter_cons_of_neg (by simpa using unknown.1), alone]
  obtain ⟨varied, there, alike⟩ := kindFields_upholds (.extend unknown.2) given
  exact ⟨varied, tagFields_object.mpr ⟨tag, tags, reads, there⟩, alike⟩

theorem GivesTagged.member
    (alike : (Role.schema.member (.object (before ++ (name, old) :: after)) name).Alike old new) :
    GivesTagged (.object (before ++ (name, old) :: after)) (.object (before ++ (name, new) :: after)) := by
  intro inner kind fields tagged
  obtain ⟨tag, alone, reads, given⟩ := tagFields_object.mp tagged
  by_cases typed : name = "type"
  · subst typed
    have here : ("type", old) ∈ (before ++ ("type", old) :: after).filter fun member => member.1 == "type" := by
      simp
    rw [alone] at here
    cases List.mem_singleton.mp here
    have flat := (Document.depth_ofJson _).symm.trans (flat_of_readKind reads)
    rw [alike.flat flat]
    exact ⟨fields, tagged, .refl _⟩
  · simp only [Role.member, fields?, kind?_of_tagFields tagged, Option.map_some, Option.getD_some,
      under_cons typed] at alike
    have tags : (before ++ (name, new) :: after).filter (fun member => member.1 == "type") =
        (before ++ (name, old) :: after).filter fun member => member.1 == "type" := by
      simp [typed]
    obtain ⟨varied, there, alike⟩ := kindFields_upholds (.member fun _ => alike) given
    exact ⟨varied, tagFields_object.mpr ⟨tag, tags.trans alone, reads, there⟩, alike⟩

theorem GivesTagged.item {before after : List Json}
    (alike : (Role.schema.item (.array (before ++ old :: after)) before.length).Alike old new) :
    GivesTagged (.array (before ++ old :: after)) (.array (before ++ new :: after)) := by
  intro inner kind fields tagged
  have known := kind?_of_tagFields tagged
  simp only [Document.ofJson, Document.ofJsonItems_eq] at tagged ⊢
  cases before with
  | nil =>
      obtain ⟨_, reads, -⟩ := Option.bind_eq_some_iff.mp tagged
      have flat := (Document.depth_ofJson _).symm.trans (flat_of_readKind reads)
      rw [alike.flat flat]
      exact ⟨fields, tagged, .refl _⟩
  | cons tag before =>
      obtain ⟨found, reads, rest⟩ := Option.bind_eq_some_iff.mp tagged
      obtain ⟨own, zipped, same⟩ := Option.bind_eq_some_iff.mp rest
      cases same
      have distinct : ((ofKind kind).map (·.1)).Nodup := by
        rw [ofKind_names]
        exact (fieldNames_distinct kind).1
      rw [← ofKind_names] at zipped
      simp only [Role.item, fields?, known, Option.map_some, Option.getD_some, List.length_cons,
        List.getElem?_cons_succ] at alike
      obtain ⟨varied, there, alike⟩ := zipFields_item distinct alike zipped
      rw [ofKind_names] at there
      refine ⟨varied, ?_, alike⟩
      simp only [List.cons_append, List.map_cons, tagFields, reads, there, Option.bind_eq_bind, Option.bind_some]
      rfl

end

section

variable {name : String} {members others before after : List (String × Json)} {old new extra : Json}

theorem GivesFields.of_picks (picks : Picks (table.map (·.1)) (under table) (documents members) (documents others)) :
    GivesFields table (.object members) (.object others) := by
  intro fields given
  rw [ofJson_object] at given ⊢
  exact picks fields given

theorem GivesFields.item {before after : List Json} (distinct : (table.map (·.1)).Nodup)
    (alike : ((table[before.length]?.map Prod.snd).getD Role.other).Alike old new) :
    GivesFields table (.array (before ++ old :: after)) (.array (before ++ new :: after)) := by
  intro fields given
  simp only [Document.ofJson, Document.ofJsonItems_eq, recordFields] at given ⊢
  exact zipFields_item distinct alike given

end

end Role

end Conform
