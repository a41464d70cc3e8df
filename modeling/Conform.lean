import Conform.Arena.Basic
import Conform.Arena.Node
import Conform.Document.Basic
import Conform.Document.Record
import Conform.ForeignFields
import Conform.Json.Basic
import Conform.Json.Number
import Conform.Json.Parser
import Conform.Json.Printer
import Conform.Json.Quoted
import Conform.Json.Token
import Conform.Number.Binary64
import Conform.Number.Numeral
import Conform.Number.Shortest
import Conform.Number.Text
import Conform.Options
import Conform.Proofs.Agreement.Agrees
import Conform.Proofs.Agreement.Checking
import Conform.Proofs.Agreement.Collecting
import Conform.Proofs.Agreement.Distributing
import Conform.Proofs.Agreement.Flattening
import Conform.Proofs.Agreement.Following
import Conform.Proofs.Agreement.Foreign
import Conform.Proofs.Agreement.Identity
import Conform.Proofs.Agreement.Projecting
import Conform.Proofs.Agreement.Related
import Conform.Proofs.Agreement.Resolving
import Conform.Proofs.Agreement.Tracing
import Conform.Proofs.Agreement.World
import Conform.Proofs.Alias.Checking
import Conform.Proofs.Alias.Distributing
import Conform.Proofs.Alias.Fates
import Conform.Proofs.Alias.Flattening
import Conform.Proofs.Alias.Following
import Conform.Proofs.Alias.Foreign
import Conform.Proofs.Alias.Nodes
import Conform.Proofs.Alias.Recalling
import Conform.Proofs.Alias.Searching
import Conform.Proofs.Alias.Shapes
import Conform.Proofs.Alike.Basic
import Conform.Proofs.Alike.Corresponding
import Conform.Proofs.Alike.Remembered
import Conform.Proofs.Alike.Surveys
import Conform.Proofs.Arena.Blocks
import Conform.Proofs.Arena.Faithful
import Conform.Proofs.Arena.Ordered
import Conform.Proofs.Budget.Basic
import Conform.Proofs.Budget.Checking
import Conform.Proofs.Budget.Resolving
import Conform.Proofs.Distribution.Answers
import Conform.Proofs.Distribution.Apart
import Conform.Proofs.Distribution.Checking
import Conform.Proofs.Distribution.Descending
import Conform.Proofs.Distribution.Foreign
import Conform.Proofs.Distribution.Searching
import Conform.Proofs.Distribution.Shapes
import Conform.Proofs.Distribution.Spanning
import Conform.Proofs.Distribution.Stacked
import Conform.Proofs.Distribution.Sweeping
import Conform.Proofs.Formula.Acceptance
import Conform.Proofs.Formula.Basic
import Conform.Proofs.Formula.Reading
import Conform.Proofs.Formula.Tree
import Conform.Proofs.Json.Finite
import Conform.Proofs.Json.Grammar
import Conform.Proofs.Json.Number
import Conform.Proofs.Json.Quoted
import Conform.Proofs.Json.Tokens
import Conform.Proofs.Number.Key
import Conform.Proofs.Number.Range
import Conform.Proofs.Registry.RoundTrip
import Conform.Proofs.Registry.Varied
import Conform.Proofs.Regular.Basic
import Conform.Proofs.Regular.Checking
import Conform.Proofs.Regular.Resolving
import Conform.Proofs.Resolver.Additions
import Conform.Proofs.Resolver.Bounds
import Conform.Proofs.Resolver.Chains
import Conform.Proofs.Resolver.Collecting
import Conform.Proofs.Resolver.Combined
import Conform.Proofs.Resolver.Congruence
import Conform.Proofs.Resolver.Cycles
import Conform.Proofs.Resolver.Demanding
import Conform.Proofs.Resolver.Distributing
import Conform.Proofs.Resolver.Finding
import Conform.Proofs.Resolver.Flattening
import Conform.Proofs.Resolver.Following
import Conform.Proofs.Resolver.Inheriting
import Conform.Proofs.Resolver.KnownShapes
import Conform.Proofs.Resolver.Limited
import Conform.Proofs.Resolver.Paired
import Conform.Proofs.Resolver.Projected
import Conform.Proofs.Resolver.Projecting
import Conform.Proofs.Resolver.Reaching
import Conform.Proofs.Resolver.Repeating
import Conform.Proofs.Resolver.Resolving
import Conform.Proofs.Resolver.Sound
import Conform.Proofs.Resolver.Stable
import Conform.Proofs.Resolver.Steady
import Conform.Proofs.Resolver.Synthesis
import Conform.Proofs.Resolver.Waiting
import Conform.Proofs.Resolver.Weakening
import Conform.Proofs.Run.Congruence
import Conform.Proofs.Run.Growth
import Conform.Proofs.Run.Logic
import Conform.Proofs.Run.Pairing
import Conform.Proofs.Schema.Decoded
import Conform.Proofs.Schema.Parts
import Conform.Proofs.Schema.Printable
import Conform.Proofs.Schema.Reading
import Conform.Proofs.Schema.References
import Conform.Proofs.Schema.Varied
import Conform.Proofs.Shape.Algebra
import Conform.Proofs.Shape.Fields
import Conform.Proofs.Shape.Names
import Conform.Proofs.Twins.Basic
import Conform.Proofs.Twins.Collecting
import Conform.Proofs.Twins.Registry
import Conform.Proofs.Twins.Resolving
import Conform.Proofs.Validator.Accessing
import Conform.Proofs.Validator.Accuracy
import Conform.Proofs.Validator.Aliases
import Conform.Proofs.Validator.Classifying
import Conform.Proofs.Validator.Combinators
import Conform.Proofs.Validator.Congruence
import Conform.Proofs.Validator.Cycles
import Conform.Proofs.Validator.Distribution
import Conform.Proofs.Validator.Faults
import Conform.Proofs.Validator.Finding
import Conform.Proofs.Validator.Flattening
import Conform.Proofs.Validator.Inheritance
import Conform.Proofs.Validator.Intersection
import Conform.Proofs.Validator.Levels
import Conform.Proofs.Validator.Limited
import Conform.Proofs.Validator.Loosening
import Conform.Proofs.Validator.Monotone
import Conform.Proofs.Validator.Naming
import Conform.Proofs.Validator.Order
import Conform.Proofs.Validator.Paired
import Conform.Proofs.Validator.Picking
import Conform.Proofs.Validator.Precedence
import Conform.Proofs.Validator.Reachable
import Conform.Proofs.Validator.References
import Conform.Proofs.Validator.Remembering
import Conform.Proofs.Validator.Reordering
import Conform.Proofs.Validator.Repeating
import Conform.Proofs.Validator.Searching
import Conform.Proofs.Validator.Stable
import Conform.Proofs.Validator.Together
import Conform.Proofs.Validator.Tolerance
import Conform.Proofs.Validator.Transparency
import Conform.Proofs.Validator.Tuples
import Conform.Proofs.Validator.Unrelated
import Conform.Proofs.Validator.Weakening
import Conform.Proofs.Validator.Widening
import Conform.Proofs.Validator.Yields
import Conform.Proofs.Value.Equality
import Conform.Proofs.Value.Insertion
import Conform.Proofs.Value.Parts
import Conform.Proofs.Value.Reordered
import Conform.Registry.Address
import Conform.Registry.Basic
import Conform.Registry.Json
import Conform.Registry.Load
import Conform.Registry.Table
import Conform.Registry.Yaml
import Conform.Resolver.Basic
import Conform.Resolver.Distribute
import Conform.Resolver.Foreign
import Conform.Resolver.Resolve
import Conform.Resolver.State
import Conform.Schema.Basic
import Conform.Schema.Decode
import Conform.Schema.Encode
import Conform.Schema.Kind
import Conform.Schema.Scalar
import Conform.SchemaError
import Conform.Shape
import Conform.Validator.Basic
import Conform.Validator.Check
import Conform.Validator.Outcome
import Conform.Validator.Primitive
import Conform.Validator.Structure
import Conform.Value.Basic
import Conform.Value.OfJson
import Conform.Value.TypedArray
import Conform.Yaml.Basic
import Conform.Yaml.Escape
import Conform.Yaml.Fold
import Conform.Yaml.Glyph
import Conform.Yaml.Layout
import Conform.Yaml.Parser
import Conform.Yaml.Reading
import Conform.Yaml.Token
import Conform.Yaml.Typed
