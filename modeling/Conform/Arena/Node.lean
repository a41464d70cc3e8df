import Conform.Schema.Kind

/-!
The nodes of an arena.

A node is a schema whose inner schemas are replaced by identities. Combinators
keep their parameters apart from the target, so that they can be applied to
another one.
-/

namespace Conform

/-- The identity of a node: its place in the arena.  The program counts places in 32 bits; here they
are taken without wrap-around, so results are about arenas of fewer than `2 ^ 32` nodes. -/
structure SchemaId where
  index : Nat
deriving DecidableEq, Repr, Inhabited

namespace SchemaId

def text (id : SchemaId) : String :=
  "#" ++ toString id.index

end SchemaId

/-- A declared property of an object shape. -/
structure Property where
  name : String
  optional : Bool
  type : SchemaId
deriving DecidableEq, Repr

/-- The type of the values under all keys of one type. -/
structure IndexSignature where
  keyType : KeyType
  type : SchemaId
deriving DecidableEq, Repr

/-- What a field combinator does to the shape of its target. -/
inductive Combinator where
  | pick (keys : List String)
  | optional
  | without (keys : List String)
  | overwrite (patch : SchemaId)
deriving DecidableEq, Repr

namespace Combinator

def kind : Combinator → Kind
  | .pick _ => .pick
  | .optional => .optional
  | .without _ => .without
  | .overwrite _ => .overwrite

end Combinator

inductive Node where
  | boolean
  | string
  | any
  | nonPrimitive
  | number (scalar : Option Scalar)
  | literal (value : Literal)
  | enumeration (values : List EnumValue)
  | array (element : SchemaId)
  | tuple (elements : List SchemaId) (optionalStart : Option Nat)
  | buffer (kind : Option TypedArrayKind)
  | interface (properties : List Property) (index : Option IndexSignature)
      (parents : List SchemaId)
  | reference (target : String)
  | indexedAccess (object : SchemaId) (index : String)
  | union (members : List SchemaId)
  | intersection (members : List SchemaId)
  | mapped (combinator : Combinator) (target : SchemaId)
deriving DecidableEq, Repr

namespace Node

def kind : Node → Kind
  | .boolean => .boolean
  | .string => .string
  | .any => .any
  | .nonPrimitive => .nonPrimitive
  | .number _ => .number
  | .literal _ => .literal
  | .enumeration _ => .enumeration
  | .array _ => .array
  | .tuple _ _ => .tuple
  | .buffer _ => .buffer
  | .interface _ _ _ => .interface
  | .reference _ => .reference
  | .indexedAccess _ _ => .indexedAccess
  | .union _ => .union
  | .intersection _ => .intersection
  | .mapped combinator _ => combinator.kind

/-- Whether the node describes the shape of an object. -/
def isInterfaceLike : Node → Bool
  | .interface _ _ _ | .mapped _ _ => true
  | _ => false

/-- The target of a combinator. -/
def target? : Node → Option SchemaId
  | .mapped _ target => some target
  | _ => none

/-- The same combinator on another target. -/
def withTarget? (node : Node) (target : SchemaId) : Option Node :=
  match node with
  | .mapped combinator _ => some (.mapped combinator target)
  | _ => none

end Node

end Conform
