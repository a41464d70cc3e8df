import Mathlib.Data.List.TakeWhile
import Conform.Json.Token

/-! Numbers in JSON text.  What reads as a number consists of the characters of numbers,
and a natural number reads back from its digits. -/

namespace Conform

namespace Numeral

variable {characters rest : List Char} {numeral : Numeral}

theorem splitSign_parts (characters : List Char) :
    characters = (splitSign characters).1.toList ++ (splitSign characters).2 ∧
      ∀ sign ∈ (splitSign characters).1, sign = '-' ∨ sign = '+' := by
  unfold splitSign
  split <;> simp

theorem isNumeric_of_isDigit {character : Char} (digit : character.isDigit = true) :
    Token.isNumeric character = true := by
  simp [Token.isNumeric, digit]

theorem isNumeric_of_sign {characters : List Char} {sign : Char}
    (signs : sign ∈ (splitSign characters).1) : Token.isNumeric sign = true := by
  rcases (splitSign_parts characters).2 sign signs with rfl | rfl <;> decide

theorem exponentValue_numeric {value : Int} (valued : exponentValue characters = some value) :
    ∀ character ∈ characters, Token.isNumeric character = true := by
  simp only [exponentValue] at valued
  split at valued
  · cases valued
  next digits =>
    simp only [Bool.or_eq_true, Bool.not_eq_true', not_or, Bool.not_eq_false, List.all_eq_true] at digits
    intro character listed
    rw [(splitSign_parts characters).1, List.mem_append, Option.mem_toList] at listed
    rcases listed with sign | digit
    · exact isNumeric_of_sign sign
    · exact isNumeric_of_isDigit (digits.2 character digit)

theorem splitExponent_numeric {exponent : Option Int}
    (read : splitExponent characters = some exponent) :
    ∀ character ∈ characters, Token.isNumeric character = true := by
  unfold splitExponent at read
  split at read
  · simp
  next mark rest =>
    split at read
    next marked =>
      obtain ⟨value, valued, -⟩ := Option.map_eq_some_iff.mp read
      rw [List.forall_mem_cons]
      refine ⟨?_, exponentValue_numeric valued⟩
      rcases marked with rfl | rfl <;> decide
    · cases read

/-- A numeral is its sign, its whole digits, and further characters of numbers. -/
theorem split_parts (read : split characters = some numeral) :
    ∃ tail, characters = numeral.sign.toList ++ (numeral.whole ++ tail) ∧
      (∀ sign ∈ numeral.sign, sign = '-' ∨ sign = '+') ∧
      (∀ digit ∈ numeral.whole, digit.isDigit = true) ∧
      ∀ character ∈ tail, Token.isNumeric character = true := by
  obtain ⟨parts, signs⟩ := splitSign_parts characters
  have unsigned := List.takeWhile_append_dropWhile (p := Char.isDigit) (l := (splitSign characters).2)
  have digits : ∀ digit ∈ (splitSign characters).2.takeWhile Char.isDigit, digit.isDigit = true :=
    fun digit listed => List.mem_takeWhile_imp listed
  refine ⟨(splitSign characters).2.dropWhile Char.isDigit, ?_⟩
  simp only [split] at read
  split at read
  next rest point =>
    obtain ⟨exponent, powers, rfl⟩ := Option.map_eq_some_iff.mp read
    refine ⟨by rw [unsigned]; exact parts, signs, digits, ?_⟩
    have fraction := List.takeWhile_append_dropWhile (p := Char.isDigit) (l := rest)
    rw [point, List.forall_mem_cons, ← fraction, List.forall_mem_append]
    refine ⟨by decide, fun digit listed => ?_, splitExponent_numeric powers⟩
    exact isNumeric_of_isDigit (List.mem_takeWhile_imp listed)
  next tail _ =>
    obtain ⟨exponent, powers, rfl⟩ := Option.map_eq_some_iff.mp read
    exact ⟨by rw [unsigned]; exact parts, signs, digits, splitExponent_numeric powers⟩

end Numeral

namespace JsonNumber

open Numeral

variable {characters : List Char} {value : Option JsonNumber}

/-- What reads as a number starts with a digit or a minus sign. -/
theorem read_numeric (reads : read characters = some value) :
    ∃ first rest, characters = first :: rest ∧ (first.isDigit || first == '-') = true ∧
      ∀ character ∈ rest, Token.isNumeric character = true := by
  unfold read at reads
  split at reads
  next numeral split =>
    obtain ⟨tail, parts, signs, digits, numeric⟩ := split_parts split
    split at reads
    next proper =>
      simp only [isJsonNumeral, Bool.and_eq_true, bne_iff_ne, ne_eq] at proper
      obtain ⟨⟨unsigned, whole⟩, -⟩ := proper
      have rest : ∀ character ∈ numeral.whole ++ tail, Token.isNumeric character = true :=
        List.forall_mem_append.mpr ⟨fun digit listed => isNumeric_of_isDigit (digits digit listed), numeric⟩
      cases sign : numeral.sign with
      | some mark =>
          rw [sign] at parts signs unsigned
          rcases signs mark rfl with rfl | rfl
          · exact ⟨_, _, parts, rfl, rest⟩
          · exact (unsigned rfl).elim
      | none =>
          rw [sign] at parts
          cases digits_eq : numeral.whole with
          | nil => simp [digits_eq] at whole
          | cons first others =>
              rw [digits_eq] at parts digits rest
              refine ⟨first, others ++ tail, parts, ?_, fun character listed => ?_⟩
              · simp [digits first (List.mem_cons_self ..)]
              · exact rest character (List.mem_cons_of_mem _ listed)
    · cases reads
  · cases reads

theorem digitsValue_toDigits (value : Nat) : digitsValue (Nat.toDigits 10 value) = value := by
  have same := @Nat.ofDigitChars_ten_toDigits value
  rw [Nat.ofDigitChars_eq_foldl] at same
  simpa only [digitsValue, Nat.mul_comm] using same

theorem toDigits_isDigit (value : Nat) : ∀ digit ∈ Nat.toDigits 10 value, digit.isDigit = true :=
  fun _ listed => Nat.isDigit_of_mem_toDigits (by decide) (by decide) listed

theorem toDigits_leading (value : Nat) (rest : List Char)
    (leading : Nat.toDigits 10 value = '0' :: rest) : rest = [] := by
  induction value using Nat.strongRecOn generalizing rest with
  | ind value ih =>
      rw [Nat.toDigits_eq_if (by decide)] at leading
      split at leading
      · simp_all
      next large =>
        cases front : Nat.toDigits 10 (value / 10) with
        | nil => exact (Nat.toDigits_ne_nil front).elim
        | cons first others =>
            rw [front, List.cons_append, List.cons.injEq] at leading
            obtain ⟨rfl, -⟩ := leading
            cases ih (value / 10) (by omega) others front
            have zero : digitsValue (Nat.toDigits 10 (value / 10)) = 0 := by rw [front]; rfl
            rw [digitsValue_toDigits] at zero
            omega

theorem splitSign_digits {digits : List Char} (all : ∀ digit ∈ digits, digit.isDigit = true) :
    splitSign digits = (none, digits) := by
  unfold splitSign
  split
  · exact absurd (all '-' (List.mem_cons_self ..)) (by decide)
  · exact absurd (all '+' (List.mem_cons_self ..)) (by decide)
  · rfl

theorem split_digits {digits : List Char} (all : ∀ digit ∈ digits, digit.isDigit = true) :
    split digits = some ⟨none, digits, none, none⟩ := by
  simp only [split, splitSign_digits all, List.takeWhile_eq_self_iff.mpr all,
    List.dropWhile_eq_nil_iff.mpr all, splitExponent, Option.map_some]

theorem read_natural {value : Nat} (fits : value < pow2 64) :
    read (text (.integer value)) = some (some (.integer value)) := by
  have written : text (.integer value) = Nat.toDigits 10 value := by
    simp [text]
  have proper : isJsonNumeral ⟨none, Nat.toDigits 10 value, none, none⟩ = true := by
    simp only [isJsonNumeral]
    split
    next empty => exact (Nat.toDigits_ne_nil empty).elim
    next rest leading => simp [toDigits_leading value rest leading]
    · simp
  rw [written, read, split_digits (toDigits_isDigit value)]
  simp [proper, ofNumeral, digitsValue_toDigits, isNegative, fits]

end JsonNumber

end Conform
