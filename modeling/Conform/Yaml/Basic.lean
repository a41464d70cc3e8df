/-!
YAML documents as data.

A plain scalar is typed by its spelling, a quoted one is always text. A node
that is left out is the empty plain scalar.
-/

namespace Conform

inductive Yaml where
  | plain (text : String)
  | quoted (text : String)
  | sequence (items : List Yaml)
  | mapping (entries : List (Yaml × Yaml))
deriving Repr, Inhabited, BEq

namespace Yaml

def absent : Yaml := .plain ""

mutual

/-- How many collections enclose the innermost part, a key or a value. -/
def depth : Yaml → Nat
  | .sequence items => depthOfItems items + 1
  | .mapping entries => depthOfEntries entries + 1
  | _ => 0
termination_by structural yaml => yaml

def depthOfItems : List Yaml → Nat
  | [] => 0
  | item :: rest => max item.depth (depthOfItems rest)
termination_by structural items => items

def depthOfEntries : List (Yaml × Yaml) → Nat
  | [] => 0
  | (key, value) :: rest => max (max key.depth value.depth) (depthOfEntries rest)
termination_by structural entries => entries

end

/-- The text of a scalar, whatever its spelling denotes. -/
def text? : Yaml → Option String
  | .plain text | .quoted text => some text
  | _ => none

/-- The entries of a mapping with the texts of their keys. A mapping that is
left out has none. -/
def members? : Yaml → Option (List (String × Yaml))
  | .mapping entries => entries.mapM fun (key, value) => key.text?.map (·, value)
  | .plain text => if text.isEmpty then some [] else none
  | _ => none

end Yaml

end Conform
