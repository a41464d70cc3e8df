import Conform.Number.Binary64

/-!
Decimal numerals: sign, digits, point and exponent.

A numeral is split into its parts once. `nearest` is the double closest to the
numeral; `scaled` is the value in double arithmetic, which keeps as many digits
as a 64-bit word holds and scales them by rounded powers of ten.
-/

namespace Conform

/-- A numeral in parts. A missing fraction differs from an empty one. -/
structure Numeral where
  sign : Option Char
  whole : List Char
  fraction : Option (List Char)
  exponent : Option Int
deriving DecidableEq, Repr

namespace Numeral

def digitsValue (digits : List Char) : Nat :=
  digits.foldl (fun value digit => value * 10 + (digit.toNat - '0'.toNat)) 0

/-- An optional sign, which is a plus or a minus. -/
def splitSign : List Char → Option Char × List Char
  | '-' :: rest => (some '-', rest)
  | '+' :: rest => (some '+', rest)
  | characters => (none, characters)

/-- The digits of the exponent part, which may not be empty. -/
def exponentValue (characters : List Char) : Option Int :=
  let (sign, digits) := splitSign characters
  if digits.isEmpty || !digits.all Char.isDigit then none
  else if sign = some '-' then some (-(digitsValue digits : Int))
  else some (digitsValue digits)

/-- What may follow the whole digits and the fraction. -/
def splitExponent : List Char → Option (Option Int)
  | [] => some none
  | mark :: rest =>
      if mark = 'e' ∨ mark = 'E' then (exponentValue rest).map some else none

/-- The parts of a numeral, any of its digit sequences possibly empty. -/
def split (characters : List Char) : Option Numeral :=
  let (sign, unsigned) := splitSign characters
  let whole := unsigned.takeWhile Char.isDigit
  match unsigned.dropWhile Char.isDigit with
  | '.' :: rest =>
      (splitExponent (rest.dropWhile Char.isDigit)).map fun exponent =>
        ⟨sign, whole, some (rest.takeWhile Char.isDigit), exponent⟩
  | rest => (splitExponent rest).map fun exponent => ⟨sign, whole, none, exponent⟩

def isNegative (numeral : Numeral) : Bool :=
  numeral.sign == some '-'

def fractionDigits (numeral : Numeral) : List Char :=
  numeral.fraction.getD []

/-- The double nearest to `coefficient * 10 ^ exponent`. Far beyond the range
the answer needs no power of ten. -/
def nearestScaled (negative : Bool) (coefficient : Nat) (exponent : Int) : Binary64 :=
  let magnitude := exponent + (Nat.toDigits 10 coefficient).length
  if coefficient = 0 ∨ magnitude < -400 then Binary64.zero negative
  else if 400 < magnitude then Binary64.infinity negative
  else
    Binary64.ofRatio negative (coefficient * pow10 exponent.toNat) (pow10 (-exponent).toNat)

/-- The double nearest to the numeral. -/
def nearest (numeral : Numeral) : Binary64 :=
  nearestScaled numeral.isNegative (digitsValue (numeral.whole ++ numeral.fractionDigits))
    (numeral.exponent.getD 0 - numeral.fractionDigits.length)

/-- Appends digits to a 64-bit word as long as they fit, and returns the rest. -/
def fill (word : Nat) : List Char → Nat × List Char
  | [] => (word, [])
  | digit :: rest =>
      let next := word * 10 + (digit.toNat - '0'.toNat)
      if next < pow2 64 then fill next rest else (word, digit :: rest)

/-- Scales in double arithmetic by at most `10 ^ 308` a step. Two steps down
take any 64-bit word to zero, so `steps` is never used up. A result beyond the
range has no value. -/
def scaleBy : Nat → Binary64 → Int → Option Binary64
  | 0, number, _ => some number
  | steps + 1, number, exponent =>
      if exponent.natAbs ≤ 308 then
        let power := Binary64.ofNat (pow10 exponent.natAbs)
        if 0 ≤ exponent then
          let product := number.mul power
          if product.isFinite then some product else none
        else some (number.div power)
      else if number.isZero then some number
      else if 0 ≤ exponent then none
      else scaleBy steps (number.div (Binary64.ofNat (pow10 308))) (exponent + 308)

/-- The value in double arithmetic. Whole digits that do not fit the word count
as zeros, fraction digits that do not fit are dropped. -/
def scaled (numeral : Numeral) : Option Binary64 :=
  let (wholeWord, dropped) := fill 0 numeral.whole
  let (word, cut) := fill wholeWord numeral.fractionDigits
  let kept := numeral.fractionDigits.length - cut.length
  let exponent := numeral.exponent.getD 0 + dropped.length - kept
  (scaleBy 4 (Binary64.ofRatio false word 1) exponent).map fun magnitude =>
    if numeral.isNegative then magnitude.negate else magnitude

end Numeral

namespace Binary64

/-- Reads decimal text with correct rounding: an optional sign, digits around
an optional point, an optional exponent; or `inf`, or `NaN`. -/
def ofText? (text : String) : Option Binary64 :=
  let (sign, magnitude) := Numeral.splitSign text.toList
  match magnitude with
  | ['i', 'n', 'f'] => some (infinity (sign == some '-'))
  | ['N', 'a', 'N'] => some nan
  | _ =>
      match Numeral.split text.toList with
      | none => none
      | some numeral =>
          if numeral.whole.isEmpty && numeral.fractionDigits.isEmpty then none
          else some numeral.nearest

end Binary64

end Conform
