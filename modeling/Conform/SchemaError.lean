import Conform.Arena.Node

/-!
Why a schema cannot be used, whatever the value.
-/

namespace Conform

inductive SchemaError where
  | unknownPath (path : String)
  | unknownSymbol (path symbol : String)
  /-- A reference target that is no address. -/
  | malformedTarget (target : String)
  /-- A reference target that names no symbol. -/
  | missingTarget (target : String)
  /-- A chain of references that meets a node again. -/
  | referenceCycle (label : String)
  | indexOnNonInterface (kind : Kind)
  | unknownIndex (index : String)
  | nonInterfaceParent (kind : Kind)
  | cyclicInheritance (id : SchemaId)
  | invalidCombinatorTarget (combinator kind : Kind)
  | unknownPickKey (key : String)
  | notInterfaceLike (kind : Kind)
  | unknownId (id : SchemaId)
  | depthLimitExceeded (limit : Nat)
deriving DecidableEq, Repr

namespace SchemaError

def message : SchemaError → String
  | .unknownPath path => s!"unknown path '{path}'"
  | .unknownSymbol path symbol => s!"unknown symbol '{symbol}' in path '{path}'"
  | .malformedTarget target => s!"invalid reference target '{target}'"
  | .missingTarget target => s!"cannot find reference target '{target}'"
  | .referenceCycle label => s!"reference cycle through '{label}'"
  | .indexOnNonInterface kind => s!"indexed access on non-interface type {kind.name}"
  | .unknownIndex index => s!"unknown index '{index}'"
  | .nonInterfaceParent kind => s!"interface extends non-interface type {kind.name}"
  | .cyclicInheritance id => s!"schema {id.text} inherits from itself"
  | .invalidCombinatorTarget combinator kind =>
      s!"{combinator.name} target must be an interface or union, got {kind.name}"
  | .unknownPickKey key => s!"cannot pick unknown key '{key}'"
  | .notInterfaceLike kind => s!"cannot flatten non-interface type {kind.name}"
  | .unknownId id => s!"unknown schema id {id.text}"
  | .depthLimitExceeded limit => s!"recursion limit of {limit} exceeded"

end SchemaError

end Conform
