import Conform.Json.Parser
import Conform.Json.Printer
import Conform.Registry.Basic

/-!
The document form of a registry: an object of modules, each an object of
schemas. A module that is given twice counts as given the second time.
-/

namespace Conform.Registry

/-- The members of an object, each value read by `read`. -/
def readMembers {α : Type} (read : Json → Option α) : Json → Option (List (String × α))
  | .object members =>
      members.mapM fun (name, json) => (read json).map fun value => (name, value)
  | _ => none

def readModule (json : Json) : Option (Table Schema) :=
  (readMembers Schema.ofJson? json).map Table.ofList

def ofJson? (json : Json) : Option Registry :=
  (readMembers readModule json).map fun modules => ⟨Table.ofList modules⟩

def ofText? (text : String) : Option Registry :=
  (Json.parse text).bind ofJson?

def moduleJson (table : Table Schema) : Json :=
  .object (table.entries.map fun (symbol, schema) => (symbol, schema.toJson))

def toJson (registry : Registry) : Json :=
  .object (registry.modules.entries.map fun (path, table) => (path, moduleJson table))

/-- The indented text of the registry. -/
def toText (registry : Registry) : String :=
  registry.toJson.pretty

end Conform.Registry
