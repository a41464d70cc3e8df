/-!
Addresses of symbols.

A reference names a symbol as `<module path>/<symbol name>`. A path may contain
the separator itself, so the last one counts.
-/

namespace Conform

/-- What stands before and after the last `separator`, if there is one. -/
def Text.splitLast (separator : Char) : List Char → Option (List Char × List Char)
  | [] => none
  | character :: rest =>
      match splitLast separator rest with
      | some (before, after) => some (character :: before, after)
      | none => if character = separator then some ([], rest) else none

structure Address where
  path : String
  symbol : String
deriving DecidableEq, Repr

namespace Address

/-- The address a reference target stands for, unless one side is missing or
empty. -/
def ofTarget? (target : String) : Option Address :=
  match Text.splitLast '/' target.toList with
  | some (path, symbol) =>
      if path.isEmpty || symbol.isEmpty then none
      else some ⟨String.ofList path, String.ofList symbol⟩
  | none => none

end Address

end Conform
