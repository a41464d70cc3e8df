import Conform.Document.Record
import Conform.Json.Parser

/-!
Options of a validator.
-/

namespace Conform

structure Options where
  /-- Keeps `null` and `undefined` apart. Without it a literal of the one takes
  the other, and `null` counts as leaving an optional property out. -/
  strictNullChecks : Bool := true
  /-- How many steps may follow each other without stepping into the value. -/
  maxDepth : Nat := 512
deriving DecidableEq, Repr

namespace Options

def withStrictNullChecks (options : Options) (strict : Bool) : Options :=
  { options with strictNullChecks := strict }

def withMaxDepth (options : Options) (limit : Nat) : Options :=
  { options with maxDepth := limit }

def ofJson? (json : Json) : Option Options := do
  let fields ← Record.recordFields ["strictNullChecks", "maxDepth"] (.ofJson json)
  let strict ← Record.defaulted fields "strictNullChecks" true Record.readBool
  let limit ← Record.defaulted fields "maxDepth" 512 (Record.readNatural (pow2 64))
  return ⟨strict, limit⟩

/-- Members of other names are skipped, so they only have to follow the
grammar. -/
def ofText? (text : String) : Option Options :=
  (Json.skim text).bind ofJson?

def toJson (options : Options) : Json :=
  .object [("strictNullChecks", .bool options.strictNullChecks),
    ("maxDepth", .number (.integer options.maxDepth))]

end Options

end Conform
