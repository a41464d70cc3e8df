import Conform.Document.Basic

/-!
Records in documents.

A record is an object, or an array of its fields in their order. In an object
the order of the members and members of other names do not matter, but no field
may be given twice. In an array later fields may be missing.
-/

namespace Conform.Record

open Document (Key)

/-- The fields that a record gives, by name. -/
abbrev Fields := List (String × Document)

/-- The field that a key names, if it names one of the record. A key that is
neither a name nor a position does not belong into a record. -/
def fieldOf (names : List String) : Key → Option (Option String)
  | .name text => some (if names.contains text then some text else none)
  | .position index => some names[index]?
  | .other => none

/-- The fields among the members, if none of them is repeated. -/
def pickFields (names : List String) (members : List (Key × Document)) : Option Fields := do
  let fields ← members.mapM fun (key, value) => (fieldOf names key).map fun name =>
    name.map (·, value)
  let known := fields.filterMap id
  if (known.map (·.1)).Nodup then some known else none

/-- Fields by position. -/
def zipFields (names : List String) (items : List Document) : Option Fields :=
  if items.length ≤ names.length then some (names.zip items) else none

def recordFields (names : List String) : Document → Option Fields
  | .object members => pickFields names members
  | .array items => zipFields names items
  | _ => none

/-- A field that has to be given. -/
def required {α : Type} (fields : Fields) (name : String) (read : Document → Option α) :
    Option α :=
  (fields.lookup name).bind read

/-- A field that counts as `absent` when it is not given. -/
def defaulted {α : Type} (fields : Fields) (name : String) (absent : α)
    (read : Document → Option α) : Option α :=
  match fields.lookup name with
  | some document => read document
  | none => some absent

/-- A field that may be missing or `null`. -/
def nullable {α : Type} (fields : Fields) (name : String) (read : Document → Option α) :
    Option (Option α) :=
  match fields.lookup name with
  | some .null => some none
  | some document => (read document).map some
  | none => some none

def readString : Document → Option String
  | .string value => some value
  | _ => none

def readBool : Document → Option Bool
  | .bool value => some value
  | _ => none

def readNatural (bound : Nat) (document : Document) : Option Nat :=
  document.natural? bound

def readId (document : Document) : Option UInt32 :=
  (readNatural (pow2 32) document).map UInt32.ofNat

def readList {α : Type} (read : Document → Option α) : Document → Option (List α)
  | .array items => items.mapM read
  | _ => none

/-- A name out of a fixed set, plain or as the only key of an object that maps
it to `null`. -/
def readName {α : Type} (ofName? : String → Option α) : Document → Option α
  | .string name => ofName? name
  | .object [(.name name, .null)] => ofName? name
  | _ => none

/-- What a key names, or the value at its position among all. -/
def ofKey? {α : Type} (ofName? : String → Option α) (all : List α) : Key → Option α
  | .name text => ofName? text
  | .position index => all[index]?
  | .other => none

/-- A name inside a schema, where the key may also be a position, and an empty
object does for `null`. -/
def readInnerName {α : Type} (ofName? : String → Option α) (all : List α) :
    Document → Option α
  | .string name => ofName? name
  | .object [(key, .null)] => ofKey? ofName? all key
  | .object [(key, .object [])] => ofKey? ofName? all key
  | _ => none

end Conform.Record
