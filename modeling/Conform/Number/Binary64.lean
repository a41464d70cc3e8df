/-!
Double-precision numbers as exact data.

A number is its 64-bit encoding; classification, comparison and rounding are
computed on natural numbers, so every operation here has a value that proofs
can reach. A finite number stands for `significand * 2 ^ exponent` with its
sign.
-/

namespace Conform

def pow2 (exponent : Nat) : Nat :=
  Nat.pow 2 exponent

def pow5 (exponent : Nat) : Nat :=
  Nat.pow 5 exponent

def pow10 (exponent : Nat) : Nat :=
  Nat.pow 10 exponent

/-- A double-precision number, kept as its encoding. -/
structure Binary64 where
  bits : UInt64
deriving DecidableEq, Repr, Inhabited

namespace Binary64

def fractionField (number : Binary64) : Nat :=
  number.bits.toNat % pow2 52

def exponentField (number : Binary64) : Nat :=
  number.bits.toNat / pow2 52 % pow2 11

/-- The sign bit, which zeros and NaNs carry too. -/
def signed (number : Binary64) : Bool :=
  decide (pow2 63 ≤ number.bits.toNat)

def isFinite (number : Binary64) : Bool :=
  number.exponentField != 2047

def isNaN (number : Binary64) : Bool :=
  number.exponentField == 2047 && number.fractionField != 0

def isZero (number : Binary64) : Bool :=
  number.exponentField == 0 && number.fractionField == 0

/-- The integer part of the representation; numbers below the normal range
have no hidden bit. -/
def significand (number : Binary64) : Nat :=
  if number.exponentField = 0 then number.fractionField
  else pow2 52 + number.fractionField

/-- The power of two that scales `significand`. -/
def exponent (number : Binary64) : Int :=
  (max 1 number.exponentField : Nat) - 1075

/-- Numeric equality: the two zeros agree and a NaN equals nothing. -/
def equal (left right : Binary64) : Bool :=
  !left.isNaN && !right.isNaN &&
    (left.bits == right.bits || (left.isZero && right.isZero))

instance : BEq Binary64 := ⟨equal⟩

/-- Strictly below zero. Negative zero and NaN are not. -/
def isNegative (number : Binary64) : Bool :=
  number.signed && !number.isNaN && !number.isZero

/-- A finite number without a fractional part. -/
def isIntegral (number : Binary64) : Bool :=
  number.isFinite &&
    (decide (0 ≤ number.exponent) ||
      number.significand % pow2 number.exponent.natAbs == 0)

/-- The encoding with the given sign bit over the low 63 bits. -/
def ofMagnitude (signed : Bool) (magnitude : Nat) : Binary64 :=
  ⟨UInt64.ofNat (if signed then pow2 63 + magnitude else magnitude)⟩

/-- The same magnitude with the other sign. -/
def negate (number : Binary64) : Binary64 :=
  ⟨number.bits ^^^ UInt64.ofNat (pow2 63)⟩

def infinity (signed : Bool) : Binary64 :=
  ofMagnitude signed (2047 * pow2 52)

def zero (signed : Bool) : Binary64 :=
  ofMagnitude signed 0

def nan : Binary64 :=
  ofMagnitude false (2047 * pow2 52 + pow2 51)

/-- The quotient rounded to the nearest natural number, ties to the even one. -/
def roundQuotient (numerator denominator : Nat) : Nat :=
  let quotient := numerator / denominator
  let excess := 2 * (numerator % denominator)
  if excess < denominator then quotient
  else if denominator < excess then quotient + 1
  else quotient + quotient % 2

/-- The exponent at which a quotient rounds: its integer part there has 53 bits,
or fewer at the lowest exponent. -/
def roundingExponent (numerator denominator : Nat) : Int :=
  let estimate : Int := (numerator.log2 : Int) - (denominator.log2 : Int) - 53
  let scaled := numerator * pow2 (-estimate).toNat
  let whole := scaled / (denominator * pow2 estimate.toNat)
  max (-1074) (if whole < pow2 53 then estimate else estimate + 1)

/-- The number nearest to `numerator / denominator`, ties to the even
significand, and infinity beyond the range. -/
def ofRatio (signed : Bool) (numerator denominator : Nat) : Binary64 :=
  if numerator = 0 then zero signed
  else
    let exponent := roundingExponent numerator denominator
    let rounded := roundQuotient (numerator * pow2 (-exponent).toNat)
      (denominator * pow2 exponent.toNat)
    let magnitude := (exponent + 1074).toNat * pow2 52 + rounded
    if magnitude < 2047 * pow2 52 then ofMagnitude signed magnitude
    else infinity signed

/-- The number nearest to `coefficient * 2 ^ exponent`. -/
def ofScaled (signed : Bool) (coefficient : Nat) (exponent : Int) : Binary64 :=
  ofRatio signed (coefficient * pow2 exponent.toNat) (pow2 (-exponent).toNat)

def ofNat (value : Nat) : Binary64 :=
  ofRatio false value 1

def ofInt (value : Int) : Binary64 :=
  ofRatio (decide (value < 0)) value.natAbs 1

/-- The rounded product of two finite numbers. -/
def mul (left right : Binary64) : Binary64 :=
  ofScaled (left.signed != right.signed) (left.significand * right.significand)
    (left.exponent + right.exponent)

/-- The rounded quotient of two finite numbers, the second not zero. -/
def div (left right : Binary64) : Binary64 :=
  let shift := left.exponent - right.exponent
  ofRatio (left.signed != right.signed) (left.significand * pow2 shift.toNat)
    (right.significand * pow2 (-shift).toNat)

end Binary64

end Conform
