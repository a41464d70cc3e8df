import Conform.Number.Binary64
import Conform.SchemaError

/-!
Object shapes.

A shape is what is left of an interface once inheritance and combinators are
worked out: properties in order, and at most one index signature. Where two
properties of one name meet, the earlier one stays.
-/

namespace Conform

structure Shape where
  properties : List Property
  index : Option IndexSignature
deriving DecidableEq, Repr

/-- The canonical decimal text of a natural number below `2 ^ 64`: it reads as
that number and prints back unchanged. -/
def isNumberKey (key : String) : Bool :=
  let digits := key.toList
  if digits.isEmpty || !digits.all Char.isDigit then false
  else
    let value := digits.foldl (fun value digit => value * 10 + (digit.toNat - '0'.toNat)) 0
    decide (value < pow2 64) && Nat.toDigits 10 value == digits

namespace IndexSignature

/-- Whether the signature covers a key. -/
def accepts (signature : IndexSignature) (key : String) : Bool :=
  match signature.keyType with
  | .string => true
  | .number => isNumberKey key

end IndexSignature

namespace Shape

def findProperty (properties : List Property) (name : String) : Option Property :=
  properties.find? fun property => property.name == name

def property? (shape : Shape) (name : String) : Option Property :=
  findProperty shape.properties name

def declares (shape : Shape) (name : String) : Bool :=
  (shape.property? name).isSome

/-- Adds a property at the end unless its name is taken. -/
def inheritProperty (properties : List Property) (property : Property) : List Property :=
  if (findProperty properties property.name).isSome then properties
  else properties ++ [property]

def inheritProperties (properties added : List Property) : List Property :=
  added.foldl inheritProperty properties

/-- The shape of an interface without its parents. -/
def own (properties : List Property) (index : Option IndexSignature) : Shape :=
  ⟨inheritProperties [] properties, index⟩

/-- The shape with what it lacks taken from a parent. -/
def inherit (shape parent : Shape) : Shape :=
  ⟨inheritProperties shape.properties parent.properties, shape.index.or parent.index⟩

/-- The property under a key, declared or through the index signature. -/
def project? (shape : Shape) (key : String) : Option Property :=
  match shape.property? key with
  | some property => some property
  | none =>
      match shape.index with
      | some signature =>
          if signature.accepts key then some ⟨key, false, signature.type⟩ else none
      | none => none

def pickFrom (shape : Shape) : List Property → List String → Except SchemaError (List Property)
  | picked, [] => .ok picked
  | picked, key :: rest =>
      if (findProperty picked key).isSome then pickFrom shape picked rest
      else
        match shape.project? key with
        | some property => pickFrom shape (picked ++ [property]) rest
        | none => .error (.unknownPickKey key)

/-- The properties under the given keys, in the order of the keys. The index
signature is dropped. -/
def pick (shape : Shape) (keys : List String) : Except SchemaError Shape :=
  match pickFrom shape [] keys with
  | .ok properties => .ok ⟨properties, none⟩
  | .error error => .error error

/-- The shape with every property optional. -/
def allOptional (shape : Shape) : Shape :=
  { shape with
    properties := shape.properties.map fun property => { property with optional := true } }

/-- The shape without the named properties. -/
def without (shape : Shape) (names : List String) : Shape :=
  { shape with
    properties := shape.properties.filter fun property => !names.contains property.name }

/-- Puts a property in the place of the one of its name, or at the end. -/
def replaceProperty (property : Property) : List Property → List Property
  | [] => [property]
  | present :: rest =>
      if present.name = property.name then property :: rest
      else present :: replaceProperty property rest

/-- The shape with the properties and the index signature of another on top. -/
def overwrite (shape patch : Shape) : Shape :=
  ⟨patch.properties.foldl (fun properties property => replaceProperty property properties)
      shape.properties,
    patch.index.or shape.index⟩

end Shape

end Conform
