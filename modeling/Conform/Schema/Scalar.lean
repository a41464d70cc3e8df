/-!
The numeric families of number schemas.
-/

namespace Conform

inductive Scalar where
  | int
  | uint
  | double
  | float
  | byte
  | int8
  | int16
  | int32
  | uint8
  | uint16
  | uint32
  | fixed32
  | sfixed32
  | bigint
  | bigint64
  | biguint64
deriving DecidableEq, Repr

namespace Scalar

def all : List Scalar :=
  [int, uint, double, float, byte, int8, int16, int32, uint8, uint16, uint32, fixed32,
    sfixed32, bigint, bigint64, biguint64]

def name : Scalar → String
  | int => "int"
  | uint => "uint"
  | double => "double"
  | float => "float"
  | byte => "byte"
  | int8 => "int8"
  | int16 => "int16"
  | int32 => "int32"
  | uint8 => "uint8"
  | uint16 => "uint16"
  | uint32 => "uint32"
  | fixed32 => "fixed32"
  | sfixed32 => "sfixed32"
  | bigint => "bigint"
  | bigint64 => "bigint64"
  | biguint64 => "biguint64"

def ofName? (name : String) : Option Scalar :=
  all.find? fun scalar => scalar.name == name

theorem ofName?_name (scalar : Scalar) : ofName? scalar.name = some scalar := by
  cases scalar <;> decide

/-- The families that take no fractions. -/
def isIntegral : Scalar → Bool
  | float | double => false
  | _ => true

/-- The families that take no negative numbers. -/
def isUnsigned : Scalar → Bool
  | uint | uint8 | uint16 | uint32 | fixed32 | biguint64 => true
  | _ => false

/-- The families whose values are big integers. -/
def isBig : Scalar → Bool
  | bigint | bigint64 | biguint64 => true
  | _ => false

end Scalar

end Conform
