/-!
Quoted text: the inside of a JSON string.

Reading goes through pieces, because a character beyond 16 bits is escaped as
two units and a unit of such a pair means nothing on its own. Text whose
escapes are well formed can therefore still have no value.
-/

namespace Conform.Quoted

/-- A character as it stands, or a 16-bit unit given in hexadecimal. -/
inductive Piece where
  | char (character : Char)
  | unit (value : Nat)
deriving DecidableEq, Repr

def hexDigit? (character : Char) : Option Nat :=
  if character.isDigit then some (character.toNat - '0'.toNat)
  else if 'a' ≤ character ∧ character ≤ 'f' then some (character.toNat - 'a'.toNat + 10)
  else if 'A' ≤ character ∧ character ≤ 'F' then some (character.toNat - 'A'.toNat + 10)
  else none

def hexUnit? (first second third fourth : Char) : Option Nat :=
  match hexDigit? first, hexDigit? second, hexDigit? third, hexDigit? fourth with
  | some a, some b, some c, some d => some (((a * 16 + b) * 16 + c) * 16 + d)
  | _, _, _, _ => none

/-- The character that a one-letter escape stands for. -/
def unescape? : Char → Option Char
  | '"' => some '"'
  | '\\' => some '\\'
  | '/' => some '/'
  | 'b' => some (Char.ofNat 8)
  | 't' => some '\t'
  | 'n' => some '\n'
  | 'f' => some (Char.ofNat 12)
  | 'r' => some '\r'
  | _ => none

/-- Control characters have to be escaped. -/
def isPlain (character : Char) : Bool :=
  decide (32 ≤ character.toNat)

/-- The pieces of quoted text, if its escapes are well formed. -/
def pieces : List Char → Option (List Piece)
  | [] => some []
  | '\\' :: 'u' :: first :: second :: third :: fourth :: rest =>
      match hexUnit? first second third fourth with
      | some unit => (pieces rest).map (Piece.unit unit :: ·)
      | none => none
  | '\\' :: mark :: rest =>
      match unescape? mark with
      | some character => (pieces rest).map (Piece.char character :: ·)
      | none => none
  | ['\\'] => none
  | character :: rest =>
      if isPlain character then (pieces rest).map (Piece.char character :: ·) else none

def isHighSurrogate (unit : Nat) : Bool :=
  decide (0xD800 ≤ unit ∧ unit < 0xDC00)

def isLowSurrogate (unit : Nat) : Bool :=
  decide (0xDC00 ≤ unit ∧ unit < 0xE000)

/-- The characters of the pieces, if every surrogate has its partner. -/
def join : List Piece → Option (List Char)
  | [] => some []
  | .char character :: rest => (join rest).map (character :: ·)
  | .unit high :: rest =>
      if isHighSurrogate high then
        match rest with
        | .unit low :: others =>
            if isLowSurrogate low then
              let character := Char.ofNat (0x10000 + (high - 0xD800) * 0x400 + (low - 0xDC00))
              (join others).map (character :: ·)
            else none
        | _ => none
      else if isLowSurrogate high then none
      else (join rest).map (Char.ofNat high :: ·)

/-- Whether the characters may stand between quotes, and what they denote. -/
def read (characters : List Char) : Option (Option String) :=
  (pieces characters).map fun found => (join found).map String.ofList

/-- One character inside quotes. -/
def escape (character : Char) : List Char :=
  if character = '"' then ['\\', '"']
  else if character = '\\' then ['\\', '\\']
  else if character = Char.ofNat 8 then ['\\', 'b']
  else if character = '\t' then ['\\', 't']
  else if character = '\n' then ['\\', 'n']
  else if character = Char.ofNat 12 then ['\\', 'f']
  else if character = '\r' then ['\\', 'r']
  else if isPlain character then [character]
  else
    ['\\', 'u', '0', '0', Nat.digitChar (character.toNat / 16),
      Nat.digitChar (character.toNat % 16)]

/-- The text in quotes, in front of what follows it. -/
def write (text : List Char) (rest : List Char) : List Char :=
  '"' :: text.foldr (fun character written => escape character ++ written) ('"' :: rest)

end Conform.Quoted
