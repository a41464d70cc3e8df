import Conform.Json.Basic
import Conform.Json.Quoted

/-!
From a document to text, on one line or indented.

Writing takes the text that follows, so the whole text is built in one pass.
-/

namespace Conform.Json

/-- A new line at the given level of indentation; on one line there is none. -/
def lineBreak (indent : Option Nat) (rest : List Char) : List Char :=
  match indent with
  | none => rest
  | some level => '\n' :: (List.replicate (2 * level) ' ' ++ rest)

/-- Between a key and its value. -/
def separator (indent : Option Nat) (rest : List Char) : List Char :=
  match indent with
  | none => ':' :: rest
  | some _ => ':' :: ' ' :: rest

def word (text : String) (rest : List Char) : List Char :=
  text.toList ++ rest

mutual

/-- Writes a document in front of `rest`. Parts of a container stand on lines
of their own, one level further in; an empty container takes no lines. -/
def write (indent : Option Nat) : Json → List Char → List Char
  | .null, rest => word "null" rest
  | .bool true, rest => word "true" rest
  | .bool false, rest => word "false" rest
  | .number value, rest => value.text ++ rest
  | .string value, rest => Quoted.write value.toList rest
  | .array [], rest => '[' :: ']' :: rest
  | .array (item :: items), rest =>
      let inner := indent.map (· + 1)
      '[' :: lineBreak inner (write inner item
        (writeItems inner items (lineBreak indent (']' :: rest))))
  | .object [], rest => '{' :: '}' :: rest
  | .object ((key, item) :: members), rest =>
      let inner := indent.map (· + 1)
      '{' :: lineBreak inner (Quoted.write key.toList (separator inner (write inner item
        (writeMembers inner members (lineBreak indent ('}' :: rest))))))
  | .unreadable, rest => word "null" rest
termination_by structural json => json

/-- The items after the first. -/
def writeItems (indent : Option Nat) : List Json → List Char → List Char
  | [], rest => rest
  | item :: items, rest =>
      ',' :: lineBreak indent (write indent item (writeItems indent items rest))
termination_by structural items => items

/-- The members after the first. -/
def writeMembers (indent : Option Nat) : List (String × Json) → List Char → List Char
  | [], rest => rest
  | (key, item) :: members, rest =>
      ',' :: lineBreak indent (Quoted.write key.toList (separator indent
        (write indent item (writeMembers indent members rest))))
termination_by structural members => members

end

/-- The text on one line, without blanks. -/
def compact (json : Json) : String :=
  String.ofList (write none json [])

/-- The text with two blanks for every level. -/
def pretty (json : Json) : String :=
  String.ofList (write (some 0) json [])

end Conform.Json
