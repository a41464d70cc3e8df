import Conform.Json.Basic
import Conform.Value.Basic

/-!
The value of a JSON document. All numbers become doubles, and of a repeated key
the last value counts, at the place of the first.
-/

namespace Conform.Value

mutual

def ofJson : Json → Value
  | .null => .null
  | .bool value => .boolean value
  | .number value => .number value.toBinary64
  | .string value => .string value
  | .array items => .array (ofJsonItems items)
  | .object members => .object (Object.ofList (ofJsonMembers members))
  | .unreadable => .undefined
termination_by structural json => json

def ofJsonItems : List Json → List Value
  | [] => []
  | item :: rest => ofJson item :: ofJsonItems rest
termination_by structural items => items

def ofJsonMembers : List (String × Json) → List (String × Value)
  | [] => []
  | (key, item) :: rest => (key, ofJson item) :: ofJsonMembers rest
termination_by structural members => members

end

end Conform.Value
