import Conform.Shape

/-!
Foreign fields: what the branches of a union or intersection declare.

While one branch is checked, the fields of the others are tolerated.
-/

namespace Conform

structure ForeignFields where
  /-- Declared names, in order and without repetition. -/
  names : List String
  /-- Some branch takes every key. -/
  stringKeys : Bool
  /-- Some branch takes every number key. -/
  numberKeys : Bool
deriving DecidableEq, Repr

namespace ForeignFields

def empty : ForeignFields := ⟨[], false, false⟩

/-- Adds a name at its place in the order. -/
def insertName (name : String) : List String → List String
  | [] => [name]
  | present :: rest =>
      if name < present then name :: present :: rest
      else if present = name then present :: rest
      else present :: insertName name rest

/-- Adds what a shape declares. -/
def absorb (fields : ForeignFields) (shape : Shape) : ForeignFields :=
  let keyType := shape.index.map (·.keyType)
  { names := shape.properties.foldl (fun names property => insertName property.name names)
      fields.names
    stringKeys := fields.stringKeys || keyType == some .string
    numberKeys := fields.numberKeys || keyType == some .number }

/-- Whether some branch declares the name. -/
def contains (fields : ForeignFields) (name : String) : Bool :=
  fields.names.contains name

/-- Whether some branch takes the key, by name or by index signature. -/
def permits (fields : ForeignFields) (key : String) : Bool :=
  fields.stringKeys || fields.contains key || (fields.numberKeys && isNumberKey key)

def isEmpty (fields : ForeignFields) : Bool :=
  fields.names.isEmpty && !fields.stringKeys && !fields.numberKeys

end ForeignFields

end Conform
