import Conform.Schema.Scalar
import Conform.Value.TypedArray
import Conform.Number.Binary64

/-!
The grammar of schemas.

Primitive schemas describe leaf values. Interfaces and the four field
combinators describe object shapes; unions and intersections combine schemas.
References and indexed accesses point elsewhere. Declarations carry numbers
that identify them in a schema document and mean nothing to validation.
-/

namespace Conform

/-- The value of a literal schema. -/
inductive Literal where
  | undefined
  | null
  | boolean (value : Bool)
  | number (value : Binary64)
  | string (value : String)
deriving DecidableEq, BEq, Repr

/-- A number is never taken for a string, nor a string for a number. -/
inductive EnumValue where
  | number (value : Binary64)
  | string (value : String)
deriving DecidableEq, BEq, Repr

structure EnumMember where
  id : UInt32
  value : EnumValue
deriving DecidableEq, BEq, Repr

/-- The keys that an index signature is declared for. -/
inductive KeyType where
  | string
  | number
deriving DecidableEq, Repr

mutual

structure PropertyDecl where
  id : UInt32
  name : String
  optional : Bool
  type : Schema

/-- The signature `[key: string]: T` or `[key: number]: T`. -/
structure IndexDecl where
  keyType : KeyType
  type : Schema

/-- A member of a union or intersection, or a parent of an interface. -/
structure Branch where
  id : UInt32
  type : Schema

inductive Schema where
  | boolean
  | string
  | any
  /-- Any object, buffer or typed array. -/
  | nonPrimitive
  /-- Without a family the number is a double. -/
  | number (scalar : Option Scalar)
  | literal (value : Literal)
  | enumeration (members : List EnumMember)
  | array (element : Schema)
  /-- Elements from `optionalStart` on may be left out. -/
  | tuple (elements : List Schema) (optionalStart : Option UInt64)
  /-- Without a kind the value is a plain buffer. -/
  | buffer (kind : Option TypedArrayKind)
  | interface (properties : List PropertyDecl) (index : Option IndexDecl)
      (parents : List Branch)
  /-- Another symbol, addressed as `<module path>/<symbol name>`. -/
  | reference (target : String)
  /-- The type of one property of an interface. -/
  | indexedAccess (object : Schema) (index : String)
  | union (members : List Branch)
  | intersection (members : List Branch)
  /-- The named properties of the target, and no others. -/
  | pick (target : Schema) (keys : List String)
  /-- The target with every property optional. -/
  | optional (target : Schema)
  /-- The target without the named properties. -/
  | without (target : Schema) (keys : List String)
  /-- The target with the properties of a second shape on top. -/
  | overwrite (target : Schema) (patch : Schema)

end

deriving instance Repr, BEq for PropertyDecl, IndexDecl, Branch, Schema

instance : Inhabited Schema := ⟨.any⟩

namespace Branch

/-- Branches numbered in their order. -/
def numbered (schemas : List Schema) : List Branch :=
  schemas.mapIdx fun index schema => ⟨UInt32.ofNat index, schema⟩

end Branch

end Conform
