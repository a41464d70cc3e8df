import Conform.Json.Basic

/-!
Documents, whatever notation they are written in.

A schema is read from a document, so that every notation reads by the same
rules. JSON has keys of text only; other notations also have keys that give the
position of a field, and keys that name nothing.
-/

namespace Conform

namespace Document

inductive Key where
  | name (text : String)
  /-- The position of a field in its record. -/
  | position (index : Nat)
  | other
deriving DecidableEq, Repr

end Document

inductive Document where
  | null
  | bool (value : Bool)
  | natural (value : Nat)
  /-- An integer with a minus sign. It counts no positions, not even as zero. -/
  | negative (value : Int)
  | real (value : Binary64)
  | string (value : String)
  | array (items : List Document)
  | object (members : List (Document.Key × Document))
  /-- A part that denotes nothing. It may stand where a reader skips. -/
  | unreadable
deriving Inhabited, Repr

namespace Document

def ofNumber : JsonNumber → Document
  | .integer value => if value < 0 then .negative value else .natural value.toNat
  | .real value => .real value

mutual

def ofJson : Json → Document
  | .null => .null
  | .bool value => .bool value
  | .number value => ofNumber value
  | .string value => .string value
  | .array items => .array (ofJsonItems items)
  | .object members => .object (ofJsonMembers members)
  | .unreadable => .unreadable
termination_by structural json => json

def ofJsonItems : List Json → List Document
  | [] => []
  | item :: rest => ofJson item :: ofJsonItems rest
termination_by structural items => items

def ofJsonMembers : List (String × Json) → List (Key × Document)
  | [] => []
  | (name, item) :: rest => (.name name, ofJson item) :: ofJsonMembers rest
termination_by structural members => members

end

mutual

/-- How many containers enclose the innermost part. -/
def depth : Document → Nat
  | .array items => depthOfItems items + 1
  | .object members => depthOfMembers members + 1
  | _ => 0
termination_by structural document => document

def depthOfItems : List Document → Nat
  | [] => 0
  | item :: rest => max item.depth (depthOfItems rest)
termination_by structural items => items

def depthOfMembers : List (Key × Document) → Nat
  | [] => 0
  | (_, item) :: rest => max item.depth (depthOfMembers rest)
termination_by structural members => members

end

/-- The double that a number denotes; integers round to the nearest one. -/
def double? : Document → Option Binary64
  | .natural value => some (.ofNat value)
  | .negative value => some (.ofInt value)
  | .real value => some value
  | _ => none

/-- The natural number below `bound` that an integer denotes. A real is never
one, even without a fraction. -/
def natural? (bound : Nat) : Document → Option Nat
  | .natural value => if value < bound then some value else none
  | .negative value => if 0 ≤ value ∧ value < bound then some value.toNat else none
  | _ => none

end Document

end Conform
