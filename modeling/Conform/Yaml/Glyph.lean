/-!
The characters of a YAML text at their places.

The ways to end a line are made equal first, except for the two separators that
a scalar keeps. From then on a line end is one character.
-/

namespace Conform.Yaml

/-- A character and where it stands. -/
structure Glyph where
  char : Char
  /-- The bytes in front of it. -/
  offset : Nat
  line : Nat
  column : Nat
deriving Repr

/-- The mark that tells the byte order of a text. It takes up a column. -/
def byteOrderMark : Char :=
  Char.ofNat 0xFEFF

/-- Control characters may not stand in a text. -/
def isAllowed (character : Char) : Bool :=
  let code := character.toNat
  decide (code = 0x09 ∨ code = 0x0A ∨ code = 0x0D ∨ (0x20 ≤ code ∧ code ≤ 0x7E) ∨
    code = 0x85 ∨ (0xA0 ≤ code ∧ code ≤ 0xFFFD) ∨ 0x10000 ≤ code)

def isBlank (character : Char) : Bool :=
  character == ' ' || character == '\t'

/-- A line feed, a carriage return or the next-line control. -/
def isNewline (character : Char) : Bool :=
  character == '\n' || character == '\r' || character == Char.ofNat 0x85

/-- The separators of lines and of paragraphs. -/
def isSeparator (character : Char) : Bool :=
  character == Char.ofNat 0x2028 || character == Char.ofNat 0x2029

/-- What ends the line of a glyph. -/
def isLineEnd (character : Char) : Bool :=
  character == '\n' || isSeparator character

/-- The glyphs of a text that begins at the given place. -/
def glyphsFrom (offset line column : Nat) : List Char → List Glyph
  | [] => []
  | '\r' :: '\n' :: rest =>
      ⟨'\n', offset, line, column⟩ :: glyphsFrom (offset + 2) (line + 1) 0 rest
  | character :: rest =>
      let next := offset + character.utf8Size
      if isNewline character then
        ⟨'\n', offset, line, column⟩ :: glyphsFrom next (line + 1) 0 rest
      else if isSeparator character then
        ⟨character, offset, line, column⟩ :: glyphsFrom next (line + 1) 0 rest
      else ⟨character, offset, line, column⟩ :: glyphsFrom next line (column + 1) rest

/-- The glyphs of a text, if all of its characters are allowed. -/
def glyphs? (text : List Char) : Option (List Glyph) :=
  if text.all isAllowed then some (glyphsFrom 0 0 0 text) else none

/-- What stands behind a glyph in its line: nothing, a blank or a line end. -/
def isBreakBefore : List Glyph → Bool
  | [] => true
  | next :: _ => isBlank next.char || isLineEnd next.char

/-- Three dashes or three points at the start of a line, which separate
documents. -/
def isDocumentMark : List Glyph → Bool
  | first :: second :: third :: rest =>
      first.column == 0 && (first.char == '-' || first.char == '.') &&
        second.char == first.char && third.char == first.char && isBreakBefore rest
  | _ => false

end Conform.Yaml
