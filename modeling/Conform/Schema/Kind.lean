import Conform.Schema.Basic

/-!
The kinds of schemas, by which documents tag them and diagnostics name them.
-/

namespace Conform

inductive Kind where
  | boolean
  | string
  | any
  | nonPrimitive
  | number
  | literal
  | enumeration
  | array
  | tuple
  | buffer
  | interface
  | reference
  | indexedAccess
  | union
  | intersection
  | pick
  | optional
  | without
  | overwrite
deriving DecidableEq, Repr

namespace Kind

/-- All kinds, in the order in which they are numbered. -/
def all : List Kind :=
  [boolean, string, any, nonPrimitive, number, literal, enumeration, array, tuple, buffer,
    interface, reference, indexedAccess, union, intersection, pick, optional, without,
    overwrite]

def name : Kind → String
  | boolean => "Boolean"
  | string => "String"
  | any => "Any"
  | nonPrimitive => "NonPrimitive"
  | number => "Number"
  | literal => "Literal"
  | enumeration => "Enum"
  | array => "Array"
  | tuple => "Tuple"
  | buffer => "Buffer"
  | interface => "Interface"
  | reference => "Reference"
  | indexedAccess => "IndexedAccess"
  | union => "Union"
  | intersection => "Intersection"
  | pick => "Pick"
  | optional => "Partial"
  | without => "Omit"
  | overwrite => "Overwrite"

def ofName? (name : String) : Option Kind :=
  all.find? fun kind => kind.name == name

theorem ofName?_name (kind : Kind) : ofName? kind.name = some kind := by
  cases kind <;> decide

end Kind

namespace Schema

def kind : Schema → Kind
  | .boolean => .boolean
  | .string => .string
  | .any => .any
  | .nonPrimitive => .nonPrimitive
  | .number _ => .number
  | .literal _ => .literal
  | .enumeration _ => .enumeration
  | .array _ => .array
  | .tuple _ _ => .tuple
  | .buffer _ => .buffer
  | .interface _ _ _ => .interface
  | .reference _ => .reference
  | .indexedAccess _ _ => .indexedAccess
  | .union _ => .union
  | .intersection _ => .intersection
  | .pick _ _ => .pick
  | .optional _ => .optional
  | .without _ _ => .without
  | .overwrite _ _ => .overwrite

end Schema

end Conform
