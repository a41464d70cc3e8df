import Conform.Registry.Basic
import Conform.Yaml.Parser

/-!
Registries in YAML. A registry or module that is left out is empty.
-/

namespace Conform.Registry

/-- The members of a mapping, each value read by `read`. -/
def readYamlMembers {α : Type} (read : Yaml → Option α) (yaml : Yaml) :
    Option (List (String × α)) :=
  match yaml.members? with
  | some members => members.mapM fun (name, value) => (read value).map fun found => (name, found)
  | none => none

/-- The most collections that a schema may nest inside the two maps around
it. -/
def maxYamlDepth : Nat := 126

def readYamlSchema (yaml : Yaml) : Option Schema :=
  if yaml.isReadable && decide (yaml.depth ≤ maxYamlDepth) then
    Schema.ofDocument? yaml.toDocument
  else none

def readYamlModule (yaml : Yaml) : Option (Table Schema) :=
  (readYamlMembers readYamlSchema yaml).map Table.ofList

def ofYaml? (yaml : Yaml) : Option Registry :=
  (readYamlMembers readYamlModule yaml).map fun modules => ⟨Table.ofList modules⟩

end Conform.Registry
