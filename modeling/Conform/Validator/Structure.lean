import Conform.Resolver.Basic
import Conform.Validator.Primitive

/-!
The rules that step into a value.

`checkPart` checks an element or a property against its schema; it is given,
because the parts of a value are checked like the value itself. The first
failure in order is the one that is reported.
-/

namespace Conform.Validator

variable (checkPart : Value → SchemaId → Run Outcome)

/-- Checks a part and continues if it passes. -/
def checkThen (segment : Segment) (part : Value) (id : SchemaId) (next : Run Outcome) :
    Run Outcome := do
  match ← checkPart part id with
  | .success => next
  | .failure cause => return .failure (.within segment cause)

def checkItems (element : SchemaId) : Nat → List Value → Run Outcome
  | _, [] => return .success
  | position, item :: rest =>
      checkThen checkPart (.index position) item element
        (checkItems element (position + 1) rest)

def checkArray (element : SchemaId) (value : Value) : Run Outcome :=
  match value with
  | .array items => checkItems checkPart element 0 items
  | _ => return wrongType "Array" value

/-- The elements of a tuple, place by place. From `required` on a place may be
empty or hold `undefined`. -/
def checkPlaces (required : Nat) : Nat → List SchemaId → List Value → Run Outcome
  | _, [], _ => return .success
  | position, element :: elements, items =>
      let rest := checkPlaces required (position + 1) elements items.tail
      let absent : Run Outcome :=
        if position < required then
          return .failure (.within (.index position) .missingMember)
        else rest
      match items with
      | [] => absent
      | .undefined :: _ => absent
      | item :: _ => checkThen checkPart (.index position) item element rest

def checkTuple (elements : List SchemaId) (optionalStart : Option Nat) (value : Value) :
    Run Outcome :=
  match value with
  | .array items =>
      if elements.length < items.length then
        return .failure (.tupleOverlength items.length elements.length)
      else checkPlaces checkPart (optionalStart.getD elements.length) 0 elements items
  | _ => return wrongType "Array" value

/-- Whether a value that is there counts as left out. -/
def isAbsent (options : Options) (optional : Bool) : Value → Bool
  | .undefined => true
  | .null => optional && !options.strictNullChecks
  | _ => false

/-- The value that a property is checked with, unless it counts as left out. -/
def presentValue (options : Options) (object : Object) (property : Property) : Option Value :=
  (object.get? property.name).filter fun value => !isAbsent options property.optional value

/-- The declared properties, in the order of the shape. -/
def checkProperties (options : Options) (object : Object) (next : Run Outcome) :
    List Property → Run Outcome
  | [] => next
  | property :: rest =>
      match presentValue options object property with
      | some value =>
          checkThen checkPart (.field property.name) value property.type
            (checkProperties options object next rest)
      | none =>
          if property.optional then checkProperties options object next rest
          else return .failure (.within (.field property.name) .missingMember)

/-- The entries that neither the shape nor a sibling declares, against the type
of the index signature. -/
def checkEntries (isDeclared : String → Bool) (type : SchemaId) :
    List (String × Value) → Run Outcome
  | [] => return .success
  | (key, value) :: rest =>
      if isDeclared key then checkEntries isDeclared type rest
      else
        checkThen checkPart (.field key) value type (checkEntries isDeclared type rest)

/-- The first key that nothing accounts for is unexpected. -/
def checkExcess (isAccounted : String → Bool) (keys : List String) : Outcome :=
  match keys.find? fun key => !isAccounted key with
  | some key => .failure (.within (.field key) .unexpectedField)
  | none => .success

/-- Under a signature for number keys every key has to be one. -/
def checkNumberKeys (index : Option IndexSignature) (keys : List String) : Outcome :=
  if index.map (·.keyType) = some .number then
    match keys.find? fun key => !isNumberKey key with
    | some key => .failure (.within (.field key) .invalidNumberKey)
    | none => .success
  else .success

/-- What follows the declared properties. -/
def checkRemaining (object : Object) (shape : Shape) (foreign : Option ForeignFields) :
    Run Outcome :=
  match shape.index with
  | some signature =>
      checkEntries checkPart
        (fun key => shape.declares key || foreign.any (·.contains key))
        signature.type object.entries
  | none =>
      return checkExcess (fun key => shape.declares key || foreign.any (·.permits key))
        object.keys

/-- An object against a shape: first the keys as such, then the declared
properties, then the remaining entries. Inside a union or intersection the
fields of the siblings are tolerated. -/
def checkShape (options : Options) (object : Object) (shape : Shape)
    (foreign : Option ForeignFields) : Run Outcome :=
  match checkNumberKeys shape.index object.keys with
  | .success =>
      checkProperties checkPart options object
        (checkRemaining checkPart object shape foreign) shape.properties
  | failed => return failed

end Conform.Validator
