import Conform.Registry.Table
import Conform.Schema.Decode

/-!
The registry: module paths, each with a table of symbols.

A registry is supplied as a whole and is not changed by validation.
-/

namespace Conform

structure Registry where
  modules : Table (Table Schema)

namespace Registry

def empty : Registry := ⟨.empty⟩

instance : Inhabited Registry := ⟨empty⟩

instance : BEq Registry := ⟨fun left right => left.modules == right.modules⟩

def module? (registry : Registry) (path : String) : Option (Table Schema) :=
  registry.modules.get? path

def hasModule (registry : Registry) (path : String) : Bool :=
  registry.modules.contains path

/-- Defines a symbol, in place of an earlier definition. -/
def insert (registry : Registry) (path symbol : String) (schema : Schema) : Registry :=
  ⟨registry.modules.insert path
    (((registry.module? path).getD .empty).insert symbol schema)⟩

def get? (registry : Registry) (path symbol : String) : Option Schema :=
  (registry.module? path).bind (·.get? symbol)

/-- Every symbol with its path, by path and then by name. -/
def symbols (registry : Registry) : List (String × String × Schema) :=
  registry.modules.entries.flatMap fun (path, table) =>
    table.entries.map fun (symbol, schema) => (path, symbol, schema)

def moduleCount (registry : Registry) : Nat :=
  registry.modules.size

/-- The number of symbols in all modules. -/
def size (registry : Registry) : Nat :=
  registry.modules.entries.foldl (fun total (_, table) => total + table.size) 0

def isEmpty (registry : Registry) : Bool :=
  registry.size == 0

end Registry

end Conform
