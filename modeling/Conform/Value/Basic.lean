import Conform.Number.Binary64
import Conform.Value.TypedArray

/-!
Runtime values.

A value keeps apart what a wire format keeps apart: `undefined` and `null`,
doubles and big integers, byte buffers and typed arrays. An object lists its
entries in insertion order; `Object.insert` never repeats a key, and equality
looks only at which value each key has.
-/

namespace Conform

mutual

structure Object where
  entries : List (String × Value)

inductive Value where
  | undefined
  | null
  | boolean (value : Bool)
  | number (value : Binary64)
  | bigInt (value : Int)
  | string (value : String)
  /-- A hole of a sparse array is `undefined`. -/
  | array (items : List Value)
  | object (value : Object)
  | buffer (bytes : List UInt8)
  | typedArray (kind : TypedArrayKind) (bytes : List UInt8)

end

deriving instance Repr for Object, Value

instance : Inhabited Object := ⟨⟨[]⟩⟩

instance : Inhabited Value := ⟨.undefined⟩

namespace Object

def empty : Object := ⟨[]⟩

/-- Replaces the value of a key where the key stands, or adds the key last. -/
def insertEntry (key : String) (value : Value) :
    List (String × Value) → List (String × Value)
  | [] => [(key, value)]
  | (present, old) :: rest =>
      if present = key then (key, value) :: rest
      else (present, old) :: insertEntry key value rest

def insert (object : Object) (key : String) (value : Value) : Object :=
  ⟨insertEntry key value object.entries⟩

/-- Inserts the entries in their order into the empty object. -/
def ofList (entries : List (String × Value)) : Object :=
  entries.foldl (fun object (key, value) => object.insert key value) empty

def get? (object : Object) (key : String) : Option Value :=
  object.entries.lookup key

def contains (object : Object) (key : String) : Bool :=
  (object.get? key).isSome

def keys (object : Object) : List String :=
  object.entries.map (·.1)

def size (object : Object) : Nat :=
  object.entries.length

def isEmpty (object : Object) : Bool :=
  object.entries.isEmpty

/-- No key is repeated. Every object built by insertion is well formed. -/
def WellFormed (object : Object) : Prop :=
  object.keys.Nodup

end Object

namespace Value

/-- The name of a value's type in diagnostics. -/
def typeName : Value → String
  | .undefined => "undefined"
  | .null => "null"
  | .boolean _ => "boolean"
  | .number _ => "number"
  | .bigInt _ => "bigint"
  | .string _ => "string"
  | .array _ => "Array"
  | .object _ => "Object"
  | .buffer _ => "ArrayBuffer"
  | .typedArray kind _ => kind.name

/-- A typed array of `count` zero elements. -/
def zeros (kind : TypedArrayKind) (count : Nat) : Value :=
  .typedArray kind (List.replicate (count * kind.width) 0)

mutual

/-- Equality of values. Objects are equal when they have the same number of
keys and each key of the first has an equal value in the second. -/
def equal : Value → Value → Bool
  | .undefined, .undefined => true
  | .null, .null => true
  | .boolean left, .boolean right => left == right
  | .number left, .number right => left.equal right
  | .bigInt left, .bigInt right => left == right
  | .string left, .string right => left == right
  | .array left, .array right => equalItems left right
  | .object left, .object right => equalObjects left right
  | .buffer left, .buffer right => left == right
  | .typedArray leftKind left, .typedArray rightKind right =>
      leftKind == rightKind && left == right
  | _, _ => false
termination_by structural left => left

def equalItems : List Value → List Value → Bool
  | [], [] => true
  | left :: lefts, right :: rights => equal left right && equalItems lefts rights
  | _, _ => false
termination_by structural lefts => lefts

def equalObjects : Object → Object → Bool
  | ⟨entries⟩, right => entries.length == right.size && equalEntries entries right
termination_by structural left => left

def equalEntries : List (String × Value) → Object → Bool
  | [], _ => true
  | (key, left) :: rest, right =>
      (match right.get? key with
      | some value => equal left value
      | none => false) && equalEntries rest right
termination_by structural entries => entries

end

instance : BEq Value := ⟨equal⟩

end Value

instance : BEq Object := ⟨Value.equalObjects⟩

namespace Value

mutual

/-- The number of containers around the innermost part. -/
def height : Value → Nat
  | .array items => heightOfItems items + 1
  | .object content => heightOfObject content + 1
  | _ => 0
termination_by structural value => value

def heightOfItems : List Value → Nat
  | [] => 0
  | item :: rest => max item.height (heightOfItems rest)
termination_by structural items => items

def heightOfObject : Object → Nat
  | ⟨entries⟩ => heightOfEntries entries
termination_by structural content => content

def heightOfEntries : List (String × Value) → Nat
  | [] => 0
  | (_, value) :: rest => max value.height (heightOfEntries rest)
termination_by structural entries => entries

end

end Value

end Conform
