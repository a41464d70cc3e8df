import Conform.Json.Quoted
import Conform.Yaml.Glyph
import Conform.Yaml.Typed

/-!
Escapes in double quotes.
-/

namespace Conform.Yaml

/-- The character that a one-letter escape stands for. -/
def unescape? : Char → Option Char
  | '0' => some (Char.ofNat 0)
  | 'a' => some (Char.ofNat 7)
  | '\t' => some '\t'
  | 'v' => some (Char.ofNat 11)
  | 'e' => some (Char.ofNat 27)
  | ' ' => some ' '
  | 'N' => some (Char.ofNat 0x85)
  | '_' => some (Char.ofNat 0xA0)
  | 'L' => some (Char.ofNat 0x2028)
  | 'P' => some (Char.ofNat 0x2029)
  | mark => Quoted.unescape? mark

/-- The number of hexadecimal digits behind a mark. -/
def codeLength? : Char → Option Nat
  | 'x' => some 2
  | 'u' => some 4
  | 'U' => some 8
  | _ => none

/-- The character with the given code, which is no surrogate. -/
def characterOf? (code : Nat) : Option Char :=
  if code < 0xD800 ∨ (0xDFFF < code ∧ code < 0x110000) then some (Char.ofNat code) else none

/-- The character that an escape stands for, and how many glyphs behind the
backslash belong to it. -/
def escape? : List Glyph → Option (Char × Nat)
  | [] => none
  | mark :: rest =>
      match codeLength? mark.char with
      | none => (unescape? mark.char).map (·, 1)
      | some length =>
          let digits := (rest.take length).map (·.char)
          if digits.length = length then
            ((natural? 16 digits).bind characterOf?).map (·, length + 1)
          else none

end Conform.Yaml
