import Conform.Validator.Check

/-!
Validators: a registry made ready for validation, with its options.

A validator remembers what it has resolved. Each operation returns its answer
and the validator that has learned from it.
-/

namespace Conform

structure Validator where
  options : Options
  state : ResolverState

namespace Validator

def ofRegistry (registry : Registry) (options : Options) : Validator :=
  ⟨options, .ofArena (.ofRegistry registry)⟩

/-- Carries out a computation on the state of a validator. -/
def perform {α : Type} (validator : Validator) (run : Run α) :
    Except SchemaError α × Validator :=
  let (answer, state) := run validator.state
  (answer, { validator with state })

def lookup (validator : Validator) (path symbol : String) :
    Except SchemaError SchemaId × Validator :=
  validator.perform (Resolver.lookup path symbol)

/-- Adds a schema of its own, whose references resolve in the registry. -/
def intern (validator : Validator) (schema : Schema) : SchemaId × Validator :=
  let (id, arena) := validator.state.arena.intern schema
  (id, { validator with state := { validator.state with arena } })

/-- Adds a node as it is. -/
def alloc (validator : Validator) (node : Node) : SchemaId × Validator :=
  let (id, arena) := validator.state.arena.alloc node
  (id, { validator with state := { validator.state with arena } })

def resolve (validator : Validator) (id : SchemaId) : Except SchemaError SchemaId × Validator :=
  validator.perform (Resolver.resolve validator.options.maxDepth id)

def isInterfaceLike (validator : Validator) (id : SchemaId) :
    Except SchemaError Bool × Validator :=
  validator.perform (Resolver.isInterfaceLike validator.options.maxDepth id)

def flatten (validator : Validator) (id : SchemaId) : Except SchemaError Shape × Validator :=
  validator.perform (Resolver.flatten validator.options.maxDepth id)

def distribute (validator : Validator) (id : SchemaId) :
    Except SchemaError (Option SchemaId) × Validator :=
  validator.perform (Resolver.distribute validator.options.maxDepth id)

def foreignFields (validator : Validator) (id : SchemaId) :
    Except SchemaError ForeignFields × Validator :=
  validator.perform (Resolver.foreignFields validator.options.maxDepth id)

/-- Validates a value against a schema of the arena. -/
def validateById (validator : Validator) (value : Value) (id : SchemaId) :
    Except SchemaError Outcome × Validator :=
  validator.perform (check validator.options value id)

/-- Validates a value against a symbol of the registry. -/
def validate (validator : Validator) (value : Value) (path symbol : String) :
    Except SchemaError Outcome × Validator :=
  validator.perform do
    let id ← Resolver.lookup path symbol
    check validator.options value id

end Validator

end Conform
