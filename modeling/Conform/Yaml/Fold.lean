import Conform.Yaml.Glyph

/-!
Scalars over several lines.

Blanks around a line end do not count. A single line end is folded into a
blank; of several, all but the first are kept.
-/

namespace Conform.Yaml

/-- What has been read since the last character of a scalar that was neither a
blank nor a line end. Lists have their last character first. -/
inductive Gap where
  | blanks (characters : List Char)
  /-- `first` is missing where an escape hides the first line end. -/
  | lines (first : Option Char) (others : List Char)
deriving Repr

namespace Gap

def empty : Gap := .blanks []

def isEmpty : Gap → Bool
  | .blanks characters => characters.isEmpty
  | .lines _ _ => false

def hasLines : Gap → Bool
  | .blanks _ => false
  | .lines _ _ => true

def addBlank (character : Char) : Gap → Gap
  | .blanks characters => .blanks (character :: characters)
  | gap => gap

def addLineEnd (character : Char) : Gap → Gap
  | .blanks _ => .lines (some character) []
  | .lines first others => .lines first (character :: others)

/-- What the gap contributes to the scalar, in order. -/
def text : Gap → List Char
  | .blanks characters => characters.reverse
  | .lines (some first) others =>
      if first ≠ '\n' then first :: others.reverse
      else if others.isEmpty then [' ']
      else others.reverse
  | .lines none others => others.reverse

end Gap

/-- The part of a scalar that has been read, its last character first. -/
structure Folded where
  characters : List Char
  gap : Gap
deriving Repr

namespace Folded

def empty : Folded := ⟨[], .empty⟩

/-- The scalar with the gap worked in. -/
def closeGap (folded : Folded) : Folded :=
  ⟨folded.gap.text.reverse ++ folded.characters, .empty⟩

def add (character : Char) (folded : Folded) : Folded :=
  ⟨character :: folded.closeGap.characters, .empty⟩

def addBlank (character : Char) (folded : Folded) : Folded :=
  { folded with gap := folded.gap.addBlank character }

def addLineEnd (character : Char) (folded : Folded) : Folded :=
  { folded with gap := folded.gap.addLineEnd character }

/-- A line end that an escape hides. -/
def hideLineEnd (folded : Folded) : Folded :=
  { folded.closeGap with gap := .lines none [] }

/-- The text without the gap at its end. -/
def trimmed (folded : Folded) : String :=
  String.ofList folded.characters.reverse

/-- The text up to a closing quote. -/
def whole (folded : Folded) : String :=
  folded.closeGap.trimmed

end Folded

end Conform.Yaml
