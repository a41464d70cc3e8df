import Conform.Json.Basic
import Conform.Schema.Kind

/-!
The document form of schemas.

A schema is an object whose first member is its tag. Members that hold a
default are left out; the number of a declaration is always written.
-/

namespace Conform

def KeyType.name : KeyType → String
  | .string => "String"
  | .number => "Number"

namespace Schema

def tagged (kind : Kind) (fields : List (String × Json)) : Json :=
  .object (("type", .string kind.name) :: fields)

/-- A member that is left out when there is nothing to write. -/
def presentField (name : String) : Option Json → List (String × Json)
  | some json => [(name, json)]
  | none => []

/-- A list that is left out when it is empty. -/
def listField (name : String) : List Json → List (String × Json)
  | [] => []
  | items => [(name, .array items)]

def naturalJson (value : Nat) : Json :=
  .number (.integer value)

def namesJson (names : List String) : Json :=
  .array (names.map .string)

/-- The value of a literal; `undefined` is written by its absence. -/
def literalJson : Literal → Option Json
  | .undefined => none
  | .null => some .null
  | .boolean value => some (.bool value)
  | .number value => some (.number (.real value))
  | .string value => some (.string value)

def enumMemberJson (member : EnumMember) : Json :=
  let value :=
    match member.value with
    | .number value => .number (.real value)
    | .string value => .string value
  .object [("id", naturalJson member.id.toNat), ("value", value)]

mutual

def toJson : Schema → Json
  | .boolean => tagged .boolean []
  | .string => tagged .string []
  | .any => tagged .any []
  | .nonPrimitive => tagged .nonPrimitive []
  | .number scalar =>
      tagged .number (presentField "scalarType" (scalar.map fun family => .string family.name))
  | .literal value => tagged .literal (presentField "literal" (literalJson value))
  | .enumeration members =>
      tagged .enumeration [("members", .array (members.map enumMemberJson))]
  | .array element => tagged .array [("elementType", toJson element)]
  | .tuple elements optionalStart =>
      tagged .tuple (("elementTypes", .array (schemasJson elements)) ::
        presentField "optionalStartIndex"
          (optionalStart.map fun index => naturalJson index.toNat))
  | .buffer kind =>
      tagged .buffer (presentField "arrayType" (kind.map fun element => .string element.name))
  | .interface properties index parents =>
      tagged .interface (listField "properties" (propertiesJson properties) ++
        presentField "indexSignature" (indexJson index) ++
        listField "extends" (branchesJson parents))
  | .reference target => tagged .reference [("target", .string target)]
  | .indexedAccess object index =>
      tagged .indexedAccess [("objectType", toJson object), ("index", .string index)]
  | .union members => tagged .union [("members", .array (branchesJson members))]
  | .intersection members =>
      tagged .intersection [("members", .array (branchesJson members))]
  | .pick target keys =>
      tagged .pick [("target", toJson target), ("keys", namesJson keys)]
  | .optional target => tagged .optional [("target", toJson target)]
  | .without target keys =>
      tagged .without [("target", toJson target), ("keys", namesJson keys)]
  | .overwrite target patch =>
      tagged .overwrite [("target", toJson target), ("overwrite", toJson patch)]
termination_by structural schema => schema

def schemasJson : List Schema → List Json
  | [] => []
  | schema :: rest => toJson schema :: schemasJson rest
termination_by structural schemas => schemas

def propertiesJson : List PropertyDecl → List Json
  | [] => []
  | ⟨id, name, isOptional, type⟩ :: rest =>
      .object ([("id", naturalJson id.toNat), ("name", .string name)] ++
        (if isOptional then [("optional", .bool true)] else []) ++
        [("type", toJson type)]) :: propertiesJson rest
termination_by structural properties => properties

def indexJson : Option IndexDecl → Option Json
  | none => none
  | some ⟨keyType, type⟩ =>
      some (.object [("keyType", .string keyType.name), ("type", toJson type)])
termination_by structural index => index

def branchesJson : List Branch → List Json
  | [] => []
  | ⟨id, type⟩ :: rest =>
      .object [("id", naturalJson id.toNat), ("type", toJson type)] :: branchesJson rest
termination_by structural branches => branches

end

end Schema

end Conform
