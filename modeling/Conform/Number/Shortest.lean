import Conform.Number.Binary64

/-!
The shortest decimal that reads back as a given double.

The decimals that read back as a finite number fill an interval around it. The
search goes from coarse decimal grids to fine ones; the first grid with a point
in the interval gives the fewest digits, and on it only the two neighbours of
the number have to be looked at.
-/

namespace Conform

/-- The number `coefficient * 10 ^ exponent`. -/
structure Decimal where
  coefficient : Nat
  exponent : Int
deriving DecidableEq, Repr

/-- The choice between two neighbours at the same distance. -/
inductive Tie where
  | up
  | even
deriving DecidableEq, Repr

namespace Shortest

/-- The numbers that round to one double, in units of a quarter of its last
place. The ends belong to the interval when the significand is even. -/
structure Interval where
  low : Nat
  middle : Nat
  high : Nat
  closed : Bool
deriving Repr

/-- The gap below the least number of a binade is half the gap above it. -/
def interval (number : Binary64) : Interval :=
  let middle := 4 * number.significand
  let atBinadeStart := number.fractionField == 0 && decide (1 < number.exponentField)
  { low := if atBinadeStart then middle - 1 else middle - 2
    middle := middle
    high := middle + 2
    closed := number.significand % 2 == 0 }

/-- A decimal grid against the binary scale: `numerator / denominator` grid
steps make one unit of the interval. -/
structure Scale where
  numerator : Nat
  denominator : Nat

def scale (number : Binary64) (exponent : Int) : Scale :=
  let binary := number.exponent - 2
  { numerator := pow2 binary.toNat * pow10 (-exponent).toNat
    denominator := pow2 (-binary).toNat * pow10 exponent.toNat }

/-- Whether the grid point `coefficient` lies in the interval. -/
def holds (interval : Interval) (scale : Scale) (coefficient : Nat) : Bool :=
  let point := coefficient * scale.denominator
  let low := interval.low * scale.numerator
  let high := interval.high * scale.numerator
  if interval.closed then decide (low ≤ point ∧ point ≤ high)
  else decide (low < point ∧ point < high)

/-- The nearer of the neighbours `below` and `below + 1` of the number. -/
def nearer (tie : Tie) (interval : Interval) (scale : Scale) (below : Nat) : Nat :=
  let twice := 2 * interval.middle * scale.numerator
  let centre := (2 * below + 1) * scale.denominator
  if twice < centre then below
  else if centre < twice then below + 1
  else
    match tie with
    | .up => below + 1
    | .even => below + below % 2

/-- The grid point in the interval that is nearest to the number, if any is. -/
def gridPoint (tie : Tie) (number : Binary64) (exponent : Int) : Option Nat :=
  let interval := interval number
  let scale := scale number exponent
  let below := interval.middle * scale.numerator / scale.denominator
  match holds interval scale below, holds interval scale (below + 1) with
  | true, true => some (nearer tie interval scale below)
  | true, false => some below
  | false, true => some (below + 1)
  | false, false => none

/-- The first of `count` grids, each ten times finer than the one before, that
has a point in the interval. -/
def search (tie : Tie) (number : Binary64) : Nat → Int → Option Decimal
  | 0, _ => none
  | count + 1, exponent =>
      match gridPoint tie number exponent with
      | some coefficient => some ⟨coefficient, exponent⟩
      | none => search tie number count (exponent - 1)

/-- A power of ten above the number. -/
def startExponent (number : Binary64) : Int :=
  (number.exponent + number.significand.log2 + 1) * 30103 / 100000 + 1

/-- The decimal that equals a finite number, the sign aside. -/
def exact (number : Binary64) : Decimal :=
  if 0 ≤ number.exponent then ⟨number.significand * pow2 number.exponent.toNat, 0⟩
  else ⟨number.significand * pow5 (-number.exponent).toNat, number.exponent⟩

/-- The shortest decimal for a finite number that is not zero, the sign aside.
Seventeen digits tell all doubles apart, and the search starts at most three
grids above the first digit. -/
def decimal (tie : Tie) (number : Binary64) : Decimal :=
  (search tie number 21 (startExponent number)).getD (exact number)

end Shortest

end Conform
