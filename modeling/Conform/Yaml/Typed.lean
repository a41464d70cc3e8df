import Conform.Document.Basic
import Conform.Yaml.Basic

/-!
What the scalars of a YAML document denote.
-/

namespace Conform.Yaml

def isNull (text : String) : Bool :=
  ["", "~", "null", "Null", "NULL"].contains text

def bool? (text : String) : Option Bool :=
  if ["true", "True", "TRUE"].contains text then some true
  else if ["false", "False", "FALSE"].contains text then some false
  else none

def digit? (radix : Nat) (character : Char) : Option Nat :=
  let value :=
    if character.isDigit then some (character.toNat - '0'.toNat)
    else if 'a' ≤ character ∧ character ≤ 'f' then some (character.toNat - 'a'.toNat + 10)
    else if 'A' ≤ character ∧ character ≤ 'F' then some (character.toNat - 'A'.toNat + 10)
    else none
  value.filter fun digit => decide (digit < radix)

def natural? (radix : Nat) (digits : List Char) : Option Nat :=
  if digits.isEmpty then none
  else
    digits.foldlM (fun value character => (digit? radix character).map (value * radix + ·)) 0

/-- Decimal digits behind a zero make text, not a number. -/
def hasLeadingZero (magnitude : List Char) : Bool :=
  decide (1 < magnitude.length) && magnitude.head? == some '0' && magnitude.all Char.isDigit

/-- The magnitude of an integer in decimal, hexadecimal, octal or binary
digits. -/
def magnitude? : List Char → Option Nat
  | '0' :: 'x' :: digits => natural? 16 digits
  | '0' :: 'o' :: digits => natural? 8 digits
  | '0' :: 'b' :: digits => natural? 2 digits
  | digits => if hasLeadingZero digits then none else natural? 10 digits

/-- A finite decimal, or one of the names of the special numbers. -/
def real? (text : List Char) : Option Binary64 :=
  let (sign, magnitude) := Numeral.splitSign text
  let name := String.ofList magnitude
  if [".inf", ".Inf", ".INF"].contains name then some (.infinity (sign == some '-'))
  else if sign.isNone && [".nan", ".NaN", ".NAN"].contains name then some .nan
  else if hasLeadingZero magnitude then none
  else
    match Numeral.split text with
    | none => none
    | some numeral =>
        if numeral.whole.isEmpty && numeral.fractionDigits.isEmpty then none
        else some numeral.nearest |>.filter (·.isFinite)

/-- An integer of the 64-bit ranges. One beyond them denotes nothing, unless it
is beyond 128 bits as well. -/
def integer? (isNegative : Bool) (magnitude : Nat) : Option Document :=
  if isNegative then
    if magnitude ≤ pow2 63 then some (.negative (-magnitude))
    else if magnitude ≤ pow2 127 then some .unreadable
    else none
  else if magnitude < pow2 64 then some (.natural magnitude)
  else if magnitude < pow2 128 then some .unreadable
  else none

/-- What a spelling denotes as a number: an integer if it can, and otherwise a
decimal. -/
def number? (text : List Char) : Option Document :=
  let (sign, unsigned) := Numeral.splitSign text
  match (magnitude? unsigned).bind (integer? (sign == some '-')) with
  | some integer => some integer
  | none => (real? text).map .real

/-- What a plain scalar denotes. -/
def plainDocument (text : String) : Document :=
  if isNull text then .null
  else
    match bool? text, number? text.toList with
    | some value, _ => .bool value
    | none, some number => number
    | none, none => .string text

/-- A key names a field by text or by position. -/
def toKey : Yaml → Document.Key
  | .quoted text => .name text
  | .plain text =>
      match plainDocument text with
      | .string name => .name name
      | .natural index => .position index
      | _ => .other
  | _ => .other

mutual

/-- The document with its scalars typed. -/
def toDocument : Yaml → Document
  | .plain text => plainDocument text
  | .quoted text => .string text
  | .sequence items => .array (itemDocuments items)
  | .mapping entries => .object (entryDocuments entries)
termination_by structural yaml => yaml

def itemDocuments : List Yaml → List Document
  | [] => []
  | item :: rest => toDocument item :: itemDocuments rest
termination_by structural items => items

def entryDocuments : List (Yaml × Yaml) → List (Document.Key × Document)
  | [] => []
  | (key, value) :: rest => (toKey key, toDocument value) :: entryDocuments rest
termination_by structural entries => entries

end

def isReadablePlain (text : String) : Bool :=
  match plainDocument text with
  | .unreadable => false
  | _ => true

mutual

/-- Whether every scalar denotes something, in the keys too. -/
def isReadable : Yaml → Bool
  | .plain text => isReadablePlain text
  | .quoted _ => true
  | .sequence items => areReadableItems items
  | .mapping entries => areReadableEntries entries
termination_by structural yaml => yaml

def areReadableItems : List Yaml → Bool
  | [] => true
  | item :: rest => item.isReadable && areReadableItems rest
termination_by structural items => items

def areReadableEntries : List (Yaml × Yaml) → Bool
  | [] => true
  | (key, value) :: rest =>
      key.isReadable && value.isReadable && areReadableEntries rest
termination_by structural entries => entries

end

end Conform.Yaml
