import Conform.Document.Record
import Conform.Schema.Encode

/-!
Reading schemas from documents.

A schema is a record whose tag selects its fields. The tag stands first in the
array form and anywhere in the object form.
-/

namespace Conform

/-- All key types, in the order in which they are numbered. -/
def KeyType.all : List KeyType :=
  [.string, .number]

def KeyType.ofName? : String → Option KeyType
  | "String" => some .string
  | "Number" => some .number
  | _ => none

namespace Schema

open Record

def readLiteral : Document → Option Literal
  | .null => some .null
  | .bool value => some (.boolean value)
  | .string value => some (.string value)
  | document => document.double?.map .number

def readEnumValue : Document → Option EnumValue
  | .string value => some (.string value)
  | document => document.double?.map .number

def readEnumMember (document : Document) : Option EnumMember := do
  let fields ← recordFields ["id", "value"] document
  let id ← defaulted fields "id" 0 readId
  let value ← required fields "value" readEnumValue
  return ⟨id, value⟩

/-- The names of a kind's fields, in their order. -/
def fieldNames : Kind → List String
  | .boolean | .string | .any | .nonPrimitive => []
  | .number => ["scalarType"]
  | .literal => ["literal"]
  | .enumeration | .union | .intersection => ["members"]
  | .array => ["elementType"]
  | .tuple => ["elementTypes", "optionalStartIndex"]
  | .buffer => ["arrayType"]
  | .interface => ["properties", "indexSignature", "extends"]
  | .reference => ["target"]
  | .indexedAccess => ["objectType", "index"]
  | .pick | .without => ["target", "keys"]
  | .optional => ["target"]
  | .overwrite => ["target", "overwrite"]

/-- The kind that a tag names. Inside another schema a tag may also be the
number of the kind. -/
def readKind (inner : Bool) : Document → Option Kind
  | .string name => Kind.ofName? name
  | .natural index => if inner then Kind.all[index]? else none
  | _ => none

/-- The fields of a kind among the members. A kind without fields skips all
members, whatever their keys. -/
def kindFields (kind : Kind) (members : List (Document.Key × Document)) : Option Fields :=
  match fieldNames kind with
  | [] => some []
  | names => pickFields names members

/-- The kind of a schema and the fields that it gives. -/
def tagFields (inner : Bool) : Document → Option (Kind × Fields)
  | .object members =>
      match members.filter fun (key, _) => key == .name "type" with
      | [(_, tag)] => do
          let kind ← readKind inner tag
          let fields ← kindFields kind members
          return (kind, fields)
      | _ => none
  | .array (tag :: items) => do
      let kind ← readKind inner tag
      let fields ← zipFields (fieldNames kind) items
      return (kind, fields)
  | _ => none

section

variable (readInner : Document → Option Schema)

def readProperty (document : Document) : Option PropertyDecl := do
  let fields ← recordFields ["id", "name", "optional", "type"] document
  let id ← defaulted fields "id" 0 readId
  let name ← required fields "name" readString
  let isOptional ← defaulted fields "optional" false readBool
  let type ← required fields "type" readInner
  return ⟨id, name, isOptional, type⟩

def readIndex (document : Document) : Option IndexDecl := do
  let fields ← recordFields ["keyType", "type"] document
  let keyType ← required fields "keyType" (readInnerName KeyType.ofName? KeyType.all)
  let type ← required fields "type" readInner
  return ⟨keyType, type⟩

def readBranch (document : Document) : Option Branch := do
  let fields ← recordFields ["id", "type"] document
  let id ← defaulted fields "id" 0 readId
  let type ← required fields "type" readInner
  return ⟨id, type⟩

/-- The schema of the given kind and fields, schemas inside it read by
`readInner`. -/
def ofFields (kind : Kind) (fields : Fields) : Option Schema :=
  match kind with
  | .boolean => some .boolean
  | .string => some .string
  | .any => some .any
  | .nonPrimitive => some .nonPrimitive
  | .number => do
      return .number (← nullable fields "scalarType" (readInnerName Scalar.ofName? Scalar.all))
  | .literal => do
      return .literal (← defaulted fields "literal" .undefined readLiteral)
  | .enumeration => do
      return .enumeration (← required fields "members" (readList readEnumMember))
  | .array => do
      return .array (← required fields "elementType" readInner)
  | .tuple => do
      let elements ← required fields "elementTypes" (readList readInner)
      let optionalStart ← nullable fields "optionalStartIndex" (readNatural (pow2 64))
      return .tuple elements (optionalStart.map UInt64.ofNat)
  | .buffer => do
      return .buffer (← nullable fields "arrayType"
        (readInnerName TypedArrayKind.ofName? TypedArrayKind.all))
  | .interface => do
      let properties ← defaulted fields "properties" [] (readList (readProperty readInner))
      let index ← nullable fields "indexSignature" (readIndex readInner)
      let parents ← defaulted fields "extends" [] (readList (readBranch readInner))
      return .interface properties index parents
  | .reference => do
      return .reference (← required fields "target" readString)
  | .indexedAccess => do
      let object ← required fields "objectType" readInner
      let index ← required fields "index" readString
      return .indexedAccess object index
  | .union => do
      return .union (← required fields "members" (readList (readBranch readInner)))
  | .intersection => do
      return .intersection (← required fields "members" (readList (readBranch readInner)))
  | .pick => do
      let target ← required fields "target" readInner
      let keys ← required fields "keys" (readList readString)
      return .pick target keys
  | .optional => do
      return .optional (← required fields "target" readInner)
  | .without => do
      let target ← required fields "target" readInner
      let keys ← required fields "keys" (readList readString)
      return .without target keys
  | .overwrite => do
      let target ← required fields "target" readInner
      let patch ← required fields "overwrite" readInner
      return .overwrite target patch

end

/-- Reads a schema that nests at most `levels` schemas, itself included. -/
def readWithin : Nat → Bool → Document → Option Schema
  | 0, _, _ => none
  | levels + 1, inner, document =>
      match tagFields inner document with
      | some (kind, fields) => ofFields (readWithin levels true) kind fields
      | none => none

/-- Reads a schema. Each schema is a container of its own, so the depth of the
document bounds how many nest. -/
def ofDocument? (document : Document) : Option Schema :=
  readWithin document.depth false document

def ofJson? (json : Json) : Option Schema :=
  ofDocument? (.ofJson json)

end Schema

/-- Reads a numeric family on its own. -/
def Scalar.ofJson? (json : Json) : Option Scalar :=
  Record.readName Scalar.ofName? (.ofJson json)

end Conform
