import Conform.Number.Shortest

/-!
Written forms of doubles.

A style fixes where positional notation ends and how whole numbers look; the
digits are always the shortest that read back. `plain` never uses an exponent,
`document` always shows that the number is a double.
-/

namespace Conform

/-- How the shortest digits of a number are laid out. -/
structure NumberStyle where
  tie : Tie
  /-- The decimal exponents of the leading digit that are written
  positionally; without bounds every number is. -/
  positional : Option (Int × Int)
  /-- Ends a whole number in `.0`. -/
  pointZero : Bool
deriving Repr

namespace NumberStyle

/-- Positional for every magnitude, whole numbers without a point. -/
def plain : NumberStyle :=
  { tie := .up, positional := none, pointZero := false }

/-- Positional from 1e-5 to below 1e16, and a point or an exponent always. -/
def document : NumberStyle :=
  { tie := .even, positional := some (-5, 15), pointZero := true }

end NumberStyle

namespace Binary64

/-- The digits of a decimal without trailing zeros, and the exponent of the
leading one. -/
def leadingDigits (decimal : Decimal) : List Char × Int :=
  let digits := Nat.toDigits 10 decimal.coefficient
  ((digits.reverse.dropWhile (· == '0')).reverse,
    decimal.exponent + digits.length - 1)

/-- The digits around a point, where the first has the given decimal
exponent. -/
def positionalText (pointZero : Bool) (digits : List Char) (leading : Int) : List Char :=
  let whole := (leading + 1).toNat
  let wholeText :=
    if whole = 0 then ['0']
    else digits.take whole ++ List.replicate (whole - digits.length) '0'
  let fractionText := List.replicate (-(leading + 1)).toNat '0' ++ digits.drop whole
  if digits.length ≤ whole then
    wholeText ++ (if pointZero then ['.', '0'] else [])
  else wholeText ++ '.' :: fractionText

/-- One digit before the point, and an exponent with its sign. -/
def scientificText (digits : List Char) (leading : Int) : List Char :=
  let mantissa :=
    match digits with
    | [] => []
    | first :: [] => [first]
    | first :: rest => first :: '.' :: rest
  let sign := if leading < 0 then '-' else '+'
  mantissa ++ 'e' :: sign :: Nat.toDigits 10 leading.natAbs

/-- The text of a finite number that is not zero, the sign aside. -/
def magnitudeText (style : NumberStyle) (number : Binary64) : List Char :=
  let (digits, leading) := leadingDigits (Shortest.decimal style.tie number)
  match style.positional with
  | none => positionalText style.pointZero digits leading
  | some (lowest, highest) =>
      if lowest ≤ leading ∧ leading ≤ highest then
        positionalText style.pointZero digits leading
      else scientificText digits leading

/-- The text of a number in the given style. -/
def text (style : NumberStyle) (number : Binary64) : List Char :=
  if number.isNaN then ['N', 'a', 'N']
  else
    let magnitude :=
      if !number.isFinite then ['i', 'n', 'f']
      else if number.isZero then
        if style.pointZero then ['0', '.', '0'] else ['0']
      else magnitudeText style number
    if number.signed then '-' :: magnitude else magnitude

/-- The plain text, as diagnostics show a number. -/
def plainText (number : Binary64) : String :=
  String.ofList (number.text .plain)

end Binary64

end Conform
