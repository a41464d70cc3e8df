import Mathlib.Tactic.Ring
import Mathlib.Tactic.Linarith
import Conform.Json.Number

/-! Numbers that are read are finite.  A quotient that is not too large rounds to a
finite double, and scaling a 64-bit word in double arithmetic stays far below the
largest one, except for products, which are checked. -/

namespace Conform

namespace Binary64

variable {signed : Bool} {numerator denominator magnitude bound : Nat} {number left right : Binary64}

theorem pow2_eq (exponent : Nat) : pow2 exponent = 2 ^ exponent :=
  rfl

theorem exponentField_ofMagnitude (small : magnitude < 2048 * 2 ^ 52) :
    (ofMagnitude signed magnitude).exponentField = magnitude / 2 ^ 52 := by
  have wide : magnitude < 2 ^ 63 := by omega
  cases signed <;>
    simp only [exponentField, ofMagnitude, pow2_eq, UInt64.toNat_ofNat', Bool.false_eq_true, if_true, if_false] <;>
    omega

theorem exponentField_lt (number : Binary64) : number.exponentField < 2048 :=
  Nat.mod_lt _ (by decide)

theorem fractionField_lt (number : Binary64) : number.fractionField < 2 ^ 52 :=
  Nat.mod_lt _ (by decide)

theorem significand_lt (number : Binary64) : number.significand < 2 ^ 53 := by
  have fraction := number.fractionField_lt
  rw [significand]
  split
  · omega
  · rw [pow2_eq]
    omega

theorem isFinite_iff : number.isFinite = true ↔ number.exponentField < 2047 := by
  have bounded := number.exponentField_lt
  simp only [isFinite, bne_iff_ne, ne_eq]
  omega

theorem exponentField_negate (number : Binary64) : number.negate.exponentField = number.exponentField := by
  have top : (UInt64.ofNat (2 ^ 63)).toNat / 2 ^ 52 % 2 ^ 11 = 0 := by decide
  simp only [exponentField, negate, UInt64.toNat_xor, pow2_eq, Nat.xor_div_two_pow, Nat.xor_mod_two_pow,
    top, Nat.xor_zero]

theorem roundQuotient_le (numerator denominator : Nat) :
    roundQuotient numerator denominator ≤ numerator / denominator + 1 := by
  simp only [roundQuotient]
  split
  · omega
  · split <;> omega

/-- The quotient has at most 54 bits at the rounding exponent or above. -/
theorem scaled_quotient_lt {exponent : Int} (positive : 0 < denominator)
    (coarse : (numerator.log2 : Int) - denominator.log2 - 53 ≤ exponent) :
    numerator * 2 ^ (-exponent).toNat / (denominator * 2 ^ exponent.toNat) < 2 ^ 54 := by
  have above : numerator < 2 ^ (numerator.log2 + 1) := Nat.lt_log2_self
  have below : 2 ^ denominator.log2 ≤ denominator := Nat.log2_self_le (by omega)
  have exponents : numerator.log2 + 1 + (-exponent).toNat ≤ 54 + (denominator.log2 + exponent.toNat) := by
    omega
  rw [Nat.div_lt_iff_lt_mul (by positivity)]
  calc numerator * 2 ^ (-exponent).toNat
      < 2 ^ (numerator.log2 + 1) * 2 ^ (-exponent).toNat := by gcongr
    _ = 2 ^ (numerator.log2 + 1 + (-exponent).toNat) := (pow_add ..).symm
    _ ≤ 2 ^ (54 + (denominator.log2 + exponent.toNat)) := Nat.pow_le_pow_right (by decide) exponents
    _ = 2 ^ 54 * (2 ^ denominator.log2 * 2 ^ exponent.toNat) := by rw [pow_add, pow_add]
    _ ≤ 2 ^ 54 * (denominator * 2 ^ exponent.toNat) := by gcongr

theorem log2_quotient_le (positive : 0 < numerator) (bounded : numerator < 2 ^ bound * denominator) :
    numerator.log2 ≤ bound + denominator.log2 := by
  have above : denominator < 2 ^ (denominator.log2 + 1) := Nat.lt_log2_self
  have below : numerator < 2 ^ (bound + denominator.log2 + 1) := by
    calc numerator < 2 ^ bound * denominator := bounded
      _ ≤ 2 ^ bound * 2 ^ (denominator.log2 + 1) := by gcongr
      _ = 2 ^ (bound + denominator.log2 + 1) := by ring
  exact Nat.lt_succ_iff.mp ((Nat.log2_lt (by omega)).mpr below)

/-- A quotient below `2 ^ bound` is far from the largest exponent. -/
theorem exponentField_ofRatio_le (signed : Bool) (bound : Nat) (positive : 0 < denominator)
    (bounded : numerator < 2 ^ bound * denominator) (moderate : bound ≤ 1000) :
    (ofRatio signed numerator denominator).exponentField ≤ bound + 1026 := by
  rw [ofRatio]
  split
  next =>
    rw [zero, exponentField_ofMagnitude (by decide)]
    omega
  next nonzero =>
    have logs := log2_quotient_le (by omega) bounded
    have exponent_le : roundingExponent numerator denominator ≤ (bound : Int) - 52 := by
      simp only [roundingExponent]
      split <;> omega
    have coarse : (numerator.log2 : Int) - denominator.log2 - 53 ≤
        roundingExponent numerator denominator := by
      simp only [roundingExponent]
      split <;> omega
    have rounded := (roundQuotient_le _ _).trans (scaled_quotient_lt positive coarse)
    have below : (roundingExponent numerator denominator + 1074).toNat * 2 ^ 52 + 2 ^ 54 <
        (bound + 1027) * 2 ^ 52 := by
      omega
    dsimp only
    split
    next fits =>
      simp only [pow2_eq] at fits ⊢
      rw [exponentField_ofMagnitude (by omega)]
      omega
    next beyond =>
      simp only [pow2_eq] at beyond
      omega

theorem exponent_le (number : Binary64) : number.exponent ≤ max 1 number.exponentField - 1075 := by
  rw [exponent]

/-- The exponent of a quotient is about the difference of the exponents. -/
theorem exponentField_div_le (shift : Nat) (divisor : 0 < right.significand)
    (apart : left.exponent - right.exponent ≤ shift) (moderate : shift ≤ 900) :
    (left.div right).exponentField ≤ shift + 1079 := by
  have small := left.significand_lt
  have positive : 0 < right.significand * 2 ^ (-(left.exponent - right.exponent)).toNat := by
    positivity
  have bounded : left.significand * 2 ^ (left.exponent - right.exponent).toNat <
      2 ^ (53 + shift) * (right.significand * 2 ^ (-(left.exponent - right.exponent)).toNat) := by
    calc left.significand * 2 ^ (left.exponent - right.exponent).toNat
        < 2 ^ 53 * 2 ^ (left.exponent - right.exponent).toNat := by gcongr
      _ ≤ 2 ^ 53 * 2 ^ shift := by
          apply Nat.mul_le_mul_left
          exact Nat.pow_le_pow_right (by decide) (by omega)
      _ = 2 ^ (53 + shift) := (pow_add ..).symm
      _ ≤ _ := Nat.le_mul_of_pos_right _ positive
  have field := exponentField_ofRatio_le (left.signed != right.signed) (53 + shift) positive bounded
    (by omega)
  simp only [div, pow2_eq]
  omega

theorem pow10_exponent : ∀ power < 309,
    0 < (ofNat (pow10 power)).significand ∧ -52 ≤ (ofNat (pow10 power)).exponent := by
  decide +kernel

theorem pow10_largest : 25 ≤ (ofNat (pow10 308)).exponent := by
  decide +kernel

theorem exponentField_ofNat_le {value : Nat} (fits : value < 2 ^ 64) :
    (ofNat value).exponentField ≤ 1090 :=
  exponentField_ofRatio_le _ 64 (by decide) (by omega) (by decide)

theorem exponentField_ofInt_le {value : Int} (fits : value.natAbs < 2 ^ 64) :
    (ofInt value).exponentField ≤ 1090 :=
  exponentField_ofRatio_le _ 64 (by decide) (by omega) (by decide)

end Binary64

namespace Numeral

open Binary64

variable {numeral : Numeral} {number result : Binary64} {exponent : Int} {steps word : Nat}

theorem fill_lt (digits : List Char) (fits : word < 2 ^ 64) : (fill word digits).1 < 2 ^ 64 := by
  induction digits generalizing word with
  | nil => exact fits
  | cons digit rest ih =>
      simp only [fill]
      split
      next next_fits => exact ih next_fits
      · exact fits

/-- Scaling starts far below the largest double, and each step down stays there. -/
theorem scaleBy_isFinite (small : number.exponentField ≤ 1100)
    (scaled : scaleBy steps number exponent = some result) : result.isFinite = true := by
  induction steps generalizing number exponent with
  | zero =>
      cases scaled
      exact isFinite_iff.mpr (by omega)
  | succ steps ih =>
      have bounded := number.exponent_le
      simp only [scaleBy] at scaled
      split at scaled
      next near =>
        split at scaled
        · split at scaled
          next finite =>
            cases scaled
            exact finite
          · cases scaled
        · cases scaled
          obtain ⟨positive, above⟩ := pow10_exponent exponent.natAbs (by omega)
          have field := @exponentField_div_le number _ 77 positive (by omega) (by decide)
          exact isFinite_iff.mpr (by omega)
      · split at scaled
        · cases scaled
          exact isFinite_iff.mpr (by omega)
        · split at scaled
          · cases scaled
          · have above := pow10_largest
            have field := @exponentField_div_le number _ 0
              (pow10_exponent 308 (by decide)).1 (by omega) (by decide)
            exact ih (by omega) scaled

theorem scaled_isFinite (scales : numeral.scaled = some result) : result.isFinite = true := by
  simp only [scaled] at scales
  obtain ⟨magnitude, scaled, rfl⟩ := Option.map_eq_some_iff.mp scales
  have word := exponentField_ofNat_le (fill_lt numeral.fractionDigits
    (fill_lt numeral.whole (by decide : 0 < 2 ^ 64)))
  have finite := scaleBy_isFinite (Nat.le_trans word (by decide)) scaled
  split
  · rw [isFinite_iff, exponentField_negate, ← isFinite_iff]
    exact finite
  · exact finite

end Numeral

namespace JsonNumber

open Binary64

variable {characters : List Char} {number : JsonNumber}

theorem ofNumeral_isFinite {numeral : Numeral} (read : ofNumeral numeral = some number) :
    number.toBinary64.isFinite = true := by
  have scaled (scales : numeral.scaled.map JsonNumber.real = some number) :
      number.toBinary64.isFinite = true := by
    obtain ⟨result, scaled, rfl⟩ := Option.map_eq_some_iff.mp scales
    exact Numeral.scaled_isFinite scaled
  have integer {value : Int} (fits : value.natAbs < 2 ^ 64) :
      (JsonNumber.integer value).toBinary64.isFinite = true := by
    have field := exponentField_ofInt_le fits
    exact isFinite_iff.mpr (Nat.lt_of_le_of_lt field (by decide))
  simp only [ofNumeral] at read
  split at read
  · split at read
    · split at read
      next fits =>
        simp only [pow2_eq] at fits
        cases read
        exact integer (by omega)
      · exact scaled read
    · split at read
      next fits =>
        simp only [pow2_eq] at fits
        cases read
        exact integer (by omega)
      · exact scaled read
  · exact scaled read

/-- A number that is read is finite as a double. -/
theorem read_isFinite (reads : read characters = some (some number)) :
    number.toBinary64.isFinite = true := by
  unfold read at reads
  split at reads
  · split at reads
    · exact ofNumeral_isFinite (Option.some.inj reads)
    · cases reads
  · cases reads

end JsonNumber

end Conform
