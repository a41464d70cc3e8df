/-!
The element kinds of typed arrays.
-/

namespace Conform

inductive TypedArrayKind where
  | int8
  | int16
  | int32
  | bigInt64
  | uint8
  | uint16
  | uint32
  | bigUint64
  | float32
  | float64
deriving DecidableEq, Repr

namespace TypedArrayKind

def all : List TypedArrayKind :=
  [int8, int16, int32, bigInt64, uint8, uint16, uint32, bigUint64, float32, float64]

def name : TypedArrayKind → String
  | int8 => "Int8Array"
  | int16 => "Int16Array"
  | int32 => "Int32Array"
  | bigInt64 => "BigInt64Array"
  | uint8 => "Uint8Array"
  | uint16 => "Uint16Array"
  | uint32 => "Uint32Array"
  | bigUint64 => "BigUint64Array"
  | float32 => "Float32Array"
  | float64 => "Float64Array"

def ofName? (name : String) : Option TypedArrayKind :=
  all.find? fun kind => kind.name == name

theorem ofName?_name (kind : TypedArrayKind) : ofName? kind.name = some kind := by
  cases kind <;> decide

/-- The bytes of one element. -/
def width : TypedArrayKind → Nat
  | int8 | uint8 => 1
  | int16 | uint16 => 2
  | int32 | uint32 | float32 => 4
  | bigInt64 | bigUint64 | float64 => 8

end TypedArrayKind

end Conform
