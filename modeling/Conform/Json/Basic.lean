import Conform.Json.Number

/-!
JSON documents as data.

Members keep their order and their repetitions: what a repeated key means is
for the reader of the document to say.
-/

namespace Conform

inductive Json where
  | null
  | bool (value : Bool)
  | number (value : JsonNumber)
  | string (value : String)
  | array (items : List Json)
  | object (members : List (String × Json))
  /-- A part that follows the grammar but denotes nothing: text with half of a
  surrogate pair, or a number beyond the range of doubles. It may stand where
  a reader skips. -/
  | unreadable
deriving Inhabited, Repr

namespace Json

/-- An object is readable only with all of its keys. -/
def ofMembers (members : List (Option String × Json)) : Json :=
  match members.mapM fun (key, json) => key.map (·, json) with
  | some named => .object named
  | none => .unreadable

mutual

/-- How many containers enclose the innermost part. -/
def depth : Json → Nat
  | .array items => depthOfItems items + 1
  | .object members => depthOfMembers members + 1
  | _ => 0
termination_by structural json => json

def depthOfItems : List Json → Nat
  | [] => 0
  | item :: rest => max item.depth (depthOfItems rest)
termination_by structural items => items

def depthOfMembers : List (String × Json) → Nat
  | [] => 0
  | (_, item) :: rest => max item.depth (depthOfMembers rest)
termination_by structural members => members

end

mutual

/-- Whether every part denotes something. -/
def isReadable : Json → Bool
  | .array items => areReadableItems items
  | .object members => areReadableMembers members
  | .unreadable => false
  | _ => true
termination_by structural json => json

def areReadableItems : List Json → Bool
  | [] => true
  | item :: rest => item.isReadable && areReadableItems rest
termination_by structural items => items

def areReadableMembers : List (String × Json) → Bool
  | [] => true
  | (_, item) :: rest => item.isReadable && areReadableMembers rest
termination_by structural members => members

end

/-- The most containers a document may nest. -/
def maxDepth : Nat := 127

end Json

end Conform
