import Conform.Registry.Address
import Conform.Registry.Json
import Conform.Registry.Yaml

/-!
Loading a registry from text or from a file's content.
-/

namespace Conform

inductive LoadError where
  | json
  | yaml
  | io
deriving DecidableEq, Repr

namespace Registry

def loadJson (text : String) : Except LoadError Registry :=
  match ofText? text with
  | some registry => .ok registry
  | none => .error .json

def loadYaml (text : String) : Except LoadError Registry :=
  match (Yaml.parse text).bind ofYaml? with
  | some registry => .ok registry
  | none => .error .yaml

/-- What follows the last point of a file name that does not begin with it. -/
def extension (name : String) : Option String :=
  match Text.splitLast '.' name.toList with
  | some (stem, ending) =>
      if stem.isEmpty || name == ".." then none else some (String.ofList ending)
  | none => none

def isYamlName (name : String) : Bool :=
  extension name == some "yaml" || extension name == some "yml"

/-- Loads a file by its name and content; a file without content is missing. -/
def load (name : String) (content : Option String) : Except LoadError Registry :=
  match content with
  | none => .error .io
  | some text => if isYamlName name then loadYaml text else loadJson text

end Registry

end Conform
