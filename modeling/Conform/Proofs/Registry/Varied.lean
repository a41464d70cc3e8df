import Conform.Proofs.Registry.RoundTrip
import Conform.Proofs.Schema.Varied

/-! Registries from documents that differ in the order of members, or in members that no reader looks
at. -/

namespace Conform

namespace Table

variable {α : Type} {entries others : List (String × α)} {entry : String × α} {name : String} {value : α}

theorem mem_insertEntry_of_ne (listed : entry ∈ entries) (other : entry.1 ≠ name) :
    entry ∈ insertEntry name value entries := by
  induction entries with
  | nil => cases listed
  | cons head rest ih =>
      obtain ⟨present, old⟩ := head
      simp only [insertEntry]
      split
      · exact List.mem_cons_of_mem _ listed
      · split
        next same =>
          rcases List.mem_cons.mp listed with rfl | later
          · exact (other same).elim
          · exact List.mem_cons_of_mem _ later
        next =>
          rcases List.mem_cons.mp listed with rfl | later
          · exact List.mem_cons_self ..
          · exact List.mem_cons_of_mem _ (ih later)

theorem mem_insertEntry_self (name : String) (value : α) (entries : List (String × α)) :
    (name, value) ∈ insertEntry name value entries := by
  induction entries with
  | nil => exact List.mem_cons_self ..
  | cons head rest ih =>
      simp only [insertEntry]
      split
      · exact List.mem_cons_self ..
      · split
        · exact List.mem_cons_self ..
        · exact List.mem_cons_of_mem _ ih

theorem mem_foldl_of_distinct {table : Table α} (distinct : (entries.map (·.1)).Nodup)
    (listed : entry ∈ entries ∨ entry ∈ table.entries ∧ entry.1 ∉ entries.map (·.1)) :
    entry ∈ (entries.foldl (fun table (name, value) => table.insert name value) table).entries := by
  induction entries generalizing table with
  | nil => simpa using listed
  | cons first rest ih =>
      obtain ⟨absent, distinct⟩ := List.nodup_cons.mp distinct
      refine ih distinct ?_
      rcases listed with listed | ⟨earlier, other⟩
      · rcases List.mem_cons.mp listed with rfl | later
        · exact .inr ⟨mem_insertEntry_self .., absent⟩
        · exact .inl later
      · rw [List.map_cons, List.mem_cons, not_or] at other
        exact .inr ⟨mem_insertEntry_of_ne earlier other.1, other.2⟩

/-- The order in which distinct names are inserted does not matter. -/
theorem ofList_perm (distinct : (entries.map (·.1)).Nodup) (order : entries.Perm others) :
    ofList entries = ofList others := by
  have distinct' : (others.map (·.1)).Nodup := (order.map _).nodup_iff.mp distinct
  have irreflexive (entry : String × α) : ¬ entry.1 < entry.1 := String.lt_irrefl _
  have nodup (table : Table α) : table.entries.Nodup :=
    table.sorted.imp fun {first second} below same => by
      subst same
      exact irreflexive first below
  have members (entry : String × α) : entry ∈ (ofList entries).entries ↔ entry ∈ (ofList others).entries :=
    ⟨fun listed => mem_foldl_of_distinct distinct' (.inl (order.mem_iff.mp (mem_ofList listed))),
      fun listed => mem_foldl_of_distinct distinct (.inl (order.mem_iff.mpr (mem_ofList listed)))⟩
  have same : (ofList entries).entries.Perm (ofList others).entries :=
    (List.perm_ext_iff_of_nodup (nodup _) (nodup _)).mpr members
  exact ext_entries (same.eq_of_pairwise (fun first second _ _ below above =>
    (irreflexive first (String.lt_trans below above)).elim) (ofList entries).sorted (ofList others).sorted)

end Table

namespace Json

theorem areReadableMembers_iff {members : List (String × Json)} :
    areReadableMembers members = true ↔ ∀ member ∈ members, member.2.isReadable = true := by
  induction members with
  | nil => simp [areReadableMembers]
  | cons member rest ih => simp [areReadableMembers, ih]

theorem areReadableItems_iff {items : List Json} :
    areReadableItems items = true ↔ ∀ item ∈ items, item.isReadable = true := by
  induction items with
  | nil => simp [areReadableItems]
  | cons item rest ih => simp [areReadableItems, ih]

theorem depthOfMembers_congr {members others : List (String × Json)}
    (same : ∀ bound, (∀ member ∈ members, member.2.depth ≤ bound) ↔ ∀ member ∈ others, member.2.depth ≤ bound) :
    depthOfMembers members = depthOfMembers others :=
  Nat.le_antisymm (depthOfMembers_le.mpr ((same _).mpr (depthOfMembers_le.mp (Nat.le_refl _))))
    (depthOfMembers_le.mpr ((same _).mp (depthOfMembers_le.mp (Nat.le_refl _))))

theorem depthOfItems_congr {items others : List Json}
    (same : ∀ bound, (∀ item ∈ items, item.depth ≤ bound) ↔ ∀ item ∈ others, item.depth ≤ bound) :
    depthOfItems items = depthOfItems others :=
  Nat.le_antisymm (depthOfItems_le.mpr ((same _).mpr (depthOfItems_le.mp (Nat.le_refl _))))
    (depthOfItems_le.mpr ((same _).mp (depthOfItems_le.mp (Nat.le_refl _))))

end Json

theorem mapM_perm {α β : Type} {read : α → Option β} {items others : List α} {values : List β}
    (order : items.Perm others) (mapped : items.mapM read = some values) :
    ∃ varied, others.mapM read = some varied ∧ values.Perm varied := by
  induction order generalizing values with
  | nil => exact ⟨values, mapped, .refl _⟩
  | cons item _ ih =>
      simp only [List.mapM_cons, Option.bind_eq_bind, Option.bind_eq_some_iff, Option.pure_def,
        Option.some.injEq] at mapped
      obtain ⟨first, reads, rest, mapped, rfl⟩ := mapped
      obtain ⟨varied, mapped', order⟩ := ih mapped
      exact ⟨first :: varied, by simp [reads, mapped'], order.cons first⟩
  | swap one other items =>
      simp only [List.mapM_cons, Option.bind_eq_bind, Option.bind_eq_some_iff, Option.pure_def,
        Option.some.injEq] at mapped
      obtain ⟨second, reads, _, ⟨first, reads', rest, mapped, rfl⟩, rfl⟩ := mapped
      exact ⟨first :: second :: rest, by simp [reads, reads', mapped], .swap ..⟩
  | trans _ _ ih ih' =>
      obtain ⟨middle, mapped', order⟩ := ih mapped
      obtain ⟨varied, mapped'', order'⟩ := ih' mapped'
      exact ⟨varied, mapped'', order.trans order'⟩

theorem names_of_mapM {α : Type} {read : Json → Option α} {members : List (String × Json)}
    {entries : List (String × α)}
    (mapped : (members.mapM fun (name, json) => (read json).map fun value => (name, value)) = some entries) :
    entries.map (·.1) = members.map (·.1) := by
  induction members generalizing entries with
  | nil =>
      cases mapped
      rfl
  | cons member rest ih =>
      simp only [List.mapM_cons, Option.bind_eq_bind, Option.bind_eq_some_iff, Option.pure_def,
        Option.some.injEq] at mapped
      obtain ⟨first, reads, others, mapped, rfl⟩ := mapped
      obtain ⟨value, -, rfl⟩ := Option.map_eq_some_iff.mp reads
      exact congrArg (member.1 :: ·) (ih mapped)

namespace Registry

variable {α : Type} {read : Json → Option α} {members others before after : List (String × Json)}
  {name : String} {old new : Json}

theorem readMembers_reorder (distinct : (members.map (·.1)).Nodup) (order : members.Perm others) :
    Upholds ((readMembers read (.object members)).map Table.ofList)
      ((readMembers read (.object others)).map Table.ofList) := by
  intro table found
  obtain ⟨entries, mapped, rfl⟩ := Option.map_eq_some_iff.mp found
  obtain ⟨varied, mapped', order'⟩ := mapM_perm order mapped
  refine Option.map_eq_some_iff.mpr ⟨varied, mapped', (Table.ofList_perm ?_ order').symm⟩
  rwa [names_of_mapM mapped]

theorem readMembers_member (upholds : Upholds (read old) (read new)) :
    Upholds ((readMembers read (.object (before ++ (name, old) :: after))).map Table.ofList)
      ((readMembers read (.object (before ++ (name, new) :: after))).map Table.ofList) := by
  refine .map ?_ _
  simp only [readMembers, List.mapM_append, List.mapM_cons]
  exact (Upholds.refl _).bind fun _ => ((upholds.map _).bind fun _ => .refl _).bind fun _ => .refl _

end Registry

namespace Json.Plain

variable {members others before after : List (String × Json)} {name : String} {part : Json}

theorem of_order (plain : (Json.object members).Plain) (order : members.Perm others) :
    Json.object others = .object members := by
  cases plain with
  | flat flat => cases flat
  | empty => rw [order.nil_eq]
  | single => rw [List.singleton_perm.mp order]

/-- The one member that such an object may have stands for a name too. -/
theorem of_member (plain : (Json.object (before ++ (name, part) :: after)).Plain) : part.Plain := by
  generalize whole : Json.object (before ++ (name, part) :: after) = json at plain
  cases plain with
  | flat flat =>
      subst whole
      cases flat
  | empty => simp at whole
  | single inner =>
      obtain ⟨-, same⟩ | ⟨_, -, same⟩ := List.append_eq_cons_iff.mp (object.inj whole)
      · cases same
        exact inner
      · simp at same

theorem not_array (items : List Json) : ¬ (Json.array items).Plain := by
  intro plain
  cases plain with
  | flat flat => cases flat

end Json.Plain

namespace Role.Reads

variable {role : Role}

theorem of_order {members others : List (String × Json)} (distinct : (members.map (·.1)).Nodup)
    (order : members.Perm others) : role.Reads (.object members) (.object others) := by
  cases role with
  | modules =>
      simp only [Reads, Registry.ofJson?_eq]
      exact (Registry.readMembers_reorder distinct order).map _
  | symbols => exact Registry.readMembers_reorder distinct order
  | schema => exact .of_tagged (.reorder order)
  | property | branch | enumMember | index =>
      exact .of_record rfl (.of_picks (.reorder (order.map _)))
  | list item => exact fun _ same => by cases same
  | other => exact fun plain => plain.of_order order

theorem of_extra {members : List (String × Json)} {name : String} {extra : Json}
    {fields : List (String × Role)} (record : role.fields? (.object members) = some fields)
    (unknown : name ∉ fields.map (·.1)) : role.Reads (.object members) (.object ((name, extra) :: members)) := by
  cases role with
  | schema => exact .of_tagged (.extend record unknown)
  | property | branch | enumMember | index =>
      exact .of_record record (.of_picks (.extend unknown))
  | _ => cases record

theorem of_item {before after : List Json} {old new : Json}
    (alike : (role.item (.array (before ++ old :: after)) before.length).Alike old new) :
    role.Reads (.array (before ++ old :: after)) (.array (before ++ new :: after)) := by
  cases role with
  | schema => exact .of_tagged (.item alike)
  | property | branch | enumMember | index => exact .of_record rfl (.item (by decide) alike)
  | list item =>
      rintro _ ⟨⟩
      have same (items : List Json) : List.Forall₂ item.Reads items items :=
        List.forall₂_same.mpr fun part _ => .refl item part
      exact ⟨_, rfl, List.rel_append (same before) (.cons alike.reads (same after))⟩
  | modules | symbols => exact fun _ reads => by cases reads
  | other => exact fun plain => (Json.Plain.not_array _ plain).elim

theorem of_member {before after : List (String × Json)} {name : String} {old new : Json}
    (alike : (role.member (.object (before ++ (name, old) :: after)) name).Alike old new) :
    role.Reads (.object (before ++ (name, old) :: after)) (.object (before ++ (name, new) :: after)) := by
  cases role with
  | schema => exact .of_tagged (.member alike)
  | property | branch | enumMember | index =>
      exact .of_record rfl (.of_picks (.member fun _ => alike))
  | modules =>
      simp only [Reads, Registry.ofJson?_eq]
      exact (Registry.readMembers_member alike.reads).map _
  | symbols =>
      refine Registry.readMembers_member ?_
      rw [Schema.ofJson?, Schema.ofJson?, Schema.ofDocument?, Schema.ofDocument?, Document.depth_ofJson,
        Document.depth_ofJson, alike.depth]
      exact alike.reads _ _
  | list item => exact fun _ same => by cases same
  | other =>
      intro plain
      rw [alike.reads plain.of_member]

end Role.Reads

namespace Json.Varies

open Role

theorem alike {role : Role} {json varied : Json} (varies : Varies role json varied) :
    role.Alike json varied := by
  induction varies with
  | refl json => exact .refl _ _
  | trans _ _ ih ih' => exact ih.trans ih'
  | @reorder role members others distinct order =>
      refine ⟨?_, (fun flat => by cases flat), fun readable => ?_, .of_order distinct order⟩
      · have same : depthOfMembers others = depthOfMembers members :=
          depthOfMembers_congr fun bound => forall_congr' fun member => by rw [order.mem_iff]
        rw [depth, depth, same]
      · rw [isReadable, areReadableMembers_iff] at readable ⊢
        exact fun member listed => readable member (order.mem_iff.mpr listed)
  | @extend role members name extra fields record unknown flat readable =>
      refine ⟨?_, (fun flat => by cases flat), fun readable' => ?_, .of_extra record unknown⟩
      · rw [depth, depth, depthOfMembers, flat, Nat.zero_max]
      · rw [isReadable] at readable' ⊢
        rw [areReadableMembers, readable, readable', Bool.and_self]
  | @item role before after old new _ ih =>
      refine ⟨?_, (fun flat => by cases flat), fun readable => ?_, .of_item ih⟩
      · have same : depthOfItems (before ++ new :: after) = depthOfItems (before ++ old :: after) :=
          depthOfItems_congr fun bound => by
            rw [List.forall_mem_append, List.forall_mem_append, List.forall_mem_cons, List.forall_mem_cons, ih.depth]
        rw [depth, depth, same]
      · rw [isReadable, areReadableItems_iff] at readable ⊢
        simp only [List.forall_mem_append, List.forall_mem_cons] at readable ⊢
        exact ⟨readable.1, ih.readable readable.2.1, readable.2.2⟩
  | @member role before after name old new _ ih =>
      refine ⟨?_, (fun flat => by cases flat), fun readable => ?_, .of_member ih⟩
      · have same : depthOfMembers (before ++ (name, new) :: after) =
            depthOfMembers (before ++ (name, old) :: after) :=
          depthOfMembers_congr fun bound => by
            rw [List.forall_mem_append, List.forall_mem_append, List.forall_mem_cons, List.forall_mem_cons, ih.depth]
        rw [depth, depth, same]
      · rw [isReadable, areReadableMembers_iff] at readable ⊢
        simp only [List.forall_mem_append, List.forall_mem_cons] at readable ⊢
        exact ⟨readable.1, ih.readable readable.2.1, readable.2.2⟩

end Json.Varies

namespace Registry

/-- Text that loads still loads, and as the same registry, when members of its objects change places
and when its records get members that no reader looks at, at any depth. -/
theorem loading_ignores_order_and_unknown_members {text varied : String} {json other : Json}
    {registry : Registry} (skims : Json.skim text = some json) (skims' : Json.skim varied = some other)
    (varies : Json.Varies .modules json other) (loads : loadJson text = .ok registry) :
    loadJson varied = .ok registry := by
  have alike := varies.alike
  unfold loadJson at loads
  split at loads
  next found read =>
    cases loads
    obtain ⟨parsed, parses, reads⟩ := Option.bind_eq_some_iff.mp read
    obtain ⟨skimmed, sensible⟩ := Option.filter_eq_some_iff.mp parses
    cases skims.symm.trans skimmed
    obtain ⟨readable, nested⟩ := Bool.and_eq_true_iff.mp sensible
    have parses' : Json.parse varied = some other := by
      refine Option.filter_eq_some_iff.mpr ⟨skims', ?_⟩
      rw [alike.readable readable, alike.depth, nested, Bool.and_self]
    have read' : ofText? varied = some registry := by
      rw [ofText?, parses', Option.bind_some]
      exact alike.reads registry reads
    rw [loadJson, read']
  · cases loads

/-- One symbol, with an optional form in it. -/
def optionalAny : Registry :=
  empty.insert "m" "S" (.optional .any)

/-- A document with one symbol, by the members of its schema. -/
def oneSymbol (members : List (String × Json)) : Json :=
  .object [("m", .object [("S", .object members)])]

theorem printable_oneSymbol {members : List (String × Json)}
    (each : ∀ member ∈ members, member.2.Printable) : (oneSymbol members).Printable := by
  have symbol : (Json.object [("S", .object members)]).Printable := .object (by simpa using .object each)
  exact .object (by simpa using symbol)

def tagFirst : Json :=
  oneSymbol [("type", .string "Partial"), ("target", .object [("type", .string "Any")])]

/-- The tag goes to the end, and the inner schema gets a member of no meaning. -/
def tagLast : Json :=
  oneSymbol [("target", .object [("a", .bool true), ("type", .string "Any")]), ("type", .string "Partial")]

theorem tagFirst_varies : Json.Varies .modules tagFirst tagLast := by
  have inner : Json.Varies .schema (.object [("type", .string "Any")])
      (.object [("a", .bool true), ("type", .string "Any")]) :=
    @Json.Varies.extend .schema _ _ _ [("type", .other)] rfl (by decide) rfl rfl
  have schema : Json.Varies .schema
      (.object [("type", .string "Partial"), ("target", .object [("type", .string "Any")])])
      (.object [("target", .object [("a", .bool true), ("type", .string "Any")]),
        ("type", .string "Partial")]) :=
    .trans (@Json.Varies.member .schema [_] [] _ _ _ inner) (.reorder (by decide) (.swap ..))
  exact @Json.Varies.member .modules [] [] _ _ _ (@Json.Varies.member .symbols [] [] _ _ _ schema)

def tagFirstText : String :=
  "\x7b\"m\":\x7b\"S\":\x7b\"type\":\"Partial\",\"target\":\x7b\"type\":\"Any\"\x7d\x7d\x7d\x7d"

def tagLastText : String :=
  "\x7b\"m\":\x7b\"S\":\x7b\"target\":\x7b\"a\":true,\"type\":\"Any\"\x7d,\"type\":\"Partial\"\x7d\x7d\x7d"

theorem skim_tagFirstText : Json.skim tagFirstText = some tagFirst := by
  have target : (Json.object [("type", .string "Any")]).Printable := .object (by simp [Json.Printable.string])
  have written : tagFirstText = tagFirst.compact := rfl
  rw [written]
  exact Json.skim_write (printable_oneSymbol (by simp [Json.Printable.string, target])) none

theorem skim_tagLastText : Json.skim tagLastText = some tagLast := by
  have target : (Json.object [("a", .bool true), ("type", .string "Any")]).Printable :=
    .object (by simp [Json.Printable.string, Json.Printable.bool])
  have written : tagLastText = tagLast.compact := rfl
  rw [written]
  exact Json.skim_write (printable_oneSymbol (by simp [Json.Printable.string, target])) none

theorem loadJson_tagFirstText : loadJson tagFirstText = .ok optionalAny := by
  rw [loadJson, ofText?, Json.parse, skim_tagFirstText]
  rfl

theorem loading_ignores_order_and_unknown_members_tagged_last :
    ∃ json other, Json.skim tagFirstText = some json ∧ Json.skim tagLastText = some other ∧
      Json.Varies .modules json other ∧ loadJson tagFirstText = .ok optionalAny ∧
      loadJson tagLastText = .ok optionalAny :=
  ⟨tagFirst, tagLast, skim_tagFirstText, skim_tagLastText, tagFirst_varies, loadJson_tagFirstText,
    loading_ignores_order_and_unknown_members skim_tagFirstText skim_tagLastText tagFirst_varies
      loadJson_tagFirstText⟩

end Registry

end Conform
