import Mathlib.Algebra.GroupWithZero.Nat
import Mathlib.Data.List.Induction
import Conform.Proofs.Json.Number
import Conform.Shape

/-! Number keys.  A natural number has one decimal, and the keys that are accepted are the decimals
of the numbers below `2 ^ 64`. -/

namespace Conform

open Numeral JsonNumber

variable {digits : List Char} {digit : Char} {key : String}

/-- The spelling of a natural number: ASCII digits, and no zero in front of others. -/
structure IsDecimal (digits : List Char) : Prop where
  inhabited : digits ≠ []
  ascii : ∀ digit ∈ digits, digit.isDigit = true
  leading : ∀ next rest, digits ≠ '0' :: next :: rest

theorem isDecimal_toDigits (number : Nat) : IsDecimal (Nat.toDigits 10 number) :=
  ⟨Nat.toDigits_ne_nil, toDigits_isDigit number, fun _ _ padded => nomatch toDigits_leading number _ padded⟩

theorem digitsValue_append (digits : List Char) (digit : Char) :
    digitsValue (digits ++ [digit]) = digitsValue digits * 10 + (digit.toNat - '0'.toNat) := by
  rw [digitsValue, List.foldl_append]
  rfl

theorem toDigits_digit (ascii : digit.isDigit = true) :
    digit.toNat - '0'.toNat < 10 ∧ Nat.toDigits 10 (digit.toNat - '0'.toNat) = [digit] := by
  have range : '0'.toNat ≤ digit.toNat ∧ digit.toNat ≤ '9'.toNat := Char.isDigit_iff_toNat.mp ascii
  have small : digit.toNat - '0'.toNat < 10 := by
    have top : '9'.toNat = '0'.toNat + 9 := rfl
    omega
  have same : (digit.toNat - '0'.toNat).digitChar.toNat = digit.toNat :=
    (Nat.toNat_digitChar_of_lt_ten small).trans (Nat.add_sub_cancel' range.1)
  exact ⟨small, by rw [Nat.toDigits_of_lt_base small, Char.toNat_inj.mp same]⟩

/-- What is left of a longer decimal without its last digit is a decimal, and not of zero. -/
theorem IsDecimal.front (decimal : IsDecimal (digits ++ [digit])) (inhabited : digits ≠ []) :
    IsDecimal digits ∧ digits ≠ ['0'] := by
  refine ⟨⟨inhabited, fun other listed => decimal.ascii other (List.mem_append_left _ listed), ?_⟩, ?_⟩
  · intro next rest padded
    exact decimal.leading next (rest ++ [digit]) (by rw [padded]; rfl)
  · intro zero
    exact decimal.leading digit [] (by rw [zero]; rfl)

/-- A decimal is what its value is written as. -/
theorem IsDecimal.toDigits_digitsValue (decimal : IsDecimal digits) :
    Nat.toDigits 10 (digitsValue digits) = digits := by
  induction digits using List.reverseRecOn with
  | nil => exact (decimal.inhabited rfl).elim
  | append_singleton front last ih =>
      obtain ⟨small, single⟩ := toDigits_digit (decimal.ascii last (by simp))
      rw [digitsValue_append]
      by_cases alone : front = []
      · subst alone
        simpa [digitsValue] using single
      · obtain ⟨shorter, other⟩ := decimal.front alone
        have written := ih shorter
        have positive : 0 < digitsValue front := by
          refine Nat.pos_of_ne_zero fun zero => other ?_
          rw [← written, zero]
          rfl
        rw [Nat.mul_comm, ← Nat.toDigits_append_toDigits (by decide) positive small, written, single]

/-- Reading a key and printing it back lets the decimals through, up to the limit. -/
theorem isNumberKey_iff :
    isNumberKey key = true ↔ IsDecimal key.toList ∧ digitsValue key.toList < 2 ^ 64 := by
  have reads : isNumberKey key = true ↔ (key.toList.isEmpty || !key.toList.all Char.isDigit) = false ∧
      digitsValue key.toList < pow2 64 ∧ Nat.toDigits 10 (digitsValue key.toList) = key.toList := by
    simp only [isNumberKey, digitsValue]
    split
    next refused =>
      rw [refused]
      simp
    next passed =>
      rw [Bool.not_eq_true] at passed
      simp [passed]
  rw [reads]
  constructor
  · intro accepted
    obtain ⟨-, fits, written⟩ := accepted
    exact ⟨written ▸ isDecimal_toDigits _, fits⟩
  · intro spelled
    obtain ⟨decimal, fits⟩ := spelled
    have passed : (key.toList.isEmpty || !key.toList.all Char.isDigit) = false := by
      rw [List.isEmpty_eq_false_iff.mpr decimal.inhabited, List.all_eq_true.mpr decimal.ascii]
      rfl
    exact ⟨passed, fits, decimal.toDigits_digitsValue⟩

/-- A key is a number key exactly if some number below `2 ^ 64` is written like it.  It is none if
it is empty, has a character that is no ASCII digit, has a zero in front, or is too large. -/
theorem number_keys_are_decimals (key : String) :
    (isNumberKey key = true ↔ ∃ number, number < 2 ^ 64 ∧ key = toString number) ∧
      (isNumberKey key = false ↔ key = "" ∨ (∃ character ∈ key.toList, character.isDigit = false) ∨
        (∃ next rest, key.toList = '0' :: next :: rest) ∨ 2 ^ 64 ≤ digitsValue key.toList) := by
  constructor
  · rw [isNumberKey_iff]
    constructor
    · intro spelled
      obtain ⟨decimal, fits⟩ := spelled
      refine ⟨_, fits, ?_⟩
      rw [Nat.toString_eq_repr, Nat.repr_eq_ofList_toDigits, decimal.toDigits_digitsValue, String.ofList_toList]
    · intro numbered
      obtain ⟨number, fits, rfl⟩ := numbered
      rw [Nat.toString_eq_repr, Nat.repr_eq_ofList_toDigits, String.toList_ofList, digitsValue_toDigits]
      exact ⟨isDecimal_toDigits number, fits⟩
  · rw [← Bool.not_eq_true, isNumberKey_iff]
    constructor
    · intro refused
      by_contra! fine
      obtain ⟨inhabited, ascii, leading, fits⟩ := fine
      exact refused ⟨⟨by simpa using inhabited, by simpa using ascii, leading⟩, fits⟩
    · intro refused spelled
      obtain ⟨decimal, fits⟩ := spelled
      rcases refused with rfl | ⟨character, listed, other⟩ | ⟨next, rest, padded⟩ | large
      · exact decimal.inhabited rfl
      · exact Bool.false_ne_true (other.symm.trans (decimal.ascii character listed))
      · exact decimal.leading next rest padded
      · exact Nat.not_lt.mpr large fits

/-- The last key, the one beyond it, and one with a zero in front. -/
example : isNumberKey "18446744073709551615" = true ∧ isNumberKey "18446744073709551616" = false ∧
    isNumberKey "01" = false := by
  decide +kernel

end Conform
