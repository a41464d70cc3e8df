import Conform.Number.Numeral
import Conform.Number.Text

/-!
The numbers of a JSON document: exact integers of the 64-bit ranges, and
doubles for everything else.
-/

namespace Conform

inductive JsonNumber where
  | integer (value : Int)
  | real (value : Binary64)
deriving Repr

namespace JsonNumber

/-- As a double; integers round to the nearest one. -/
def toBinary64 : JsonNumber → Binary64
  | .integer value => Binary64.ofInt value
  | .real value => value

/-- As a natural number below `bound`. A double is never one, even without a
fraction. -/
def natural? (bound : Nat) : JsonNumber → Option Nat
  | .integer value =>
      if 0 ≤ value ∧ value < bound then some value.toNat else none
  | .real _ => none

/-- JSON asks for a digit on each side of the point, and refuses a plus sign
and leading zeros. -/
def isJsonNumeral (numeral : Numeral) : Bool :=
  numeral.sign != some '+' &&
    (match numeral.whole with
    | [] => false
    | '0' :: rest => rest.isEmpty
    | _ => true) &&
    numeral.fraction != some []

/-- An integer if it is written as one and fits 64 bits, signed below zero.
Negative zero has no integer and stays a double. -/
def ofNumeral (numeral : Numeral) : Option JsonNumber :=
  let magnitude := Numeral.digitsValue numeral.whole
  if numeral.fraction.isNone && numeral.exponent.isNone then
    if numeral.isNegative then
      if 0 < magnitude ∧ magnitude ≤ pow2 63 then some (.integer (-magnitude))
      else numeral.scaled.map .real
    else if magnitude < pow2 64 then some (.integer magnitude)
    else numeral.scaled.map .real
  else numeral.scaled.map .real

/-- Whether the characters are a JSON number, and what it denotes; a number
beyond the range of doubles denotes nothing. -/
def read (characters : List Char) : Option (Option JsonNumber) :=
  match Numeral.split characters with
  | some numeral => if isJsonNumeral numeral then some (ofNumeral numeral) else none
  | none => none

/-- JSON has no text for infinities and NaN; they print as `null`. -/
def text : JsonNumber → List Char
  | .integer value =>
      if value < 0 then '-' :: Nat.toDigits 10 value.natAbs else Nat.toDigits 10 value.natAbs
  | .real value => if value.isFinite then value.text .document else ['n', 'u', 'l', 'l']

end JsonNumber

end Conform
