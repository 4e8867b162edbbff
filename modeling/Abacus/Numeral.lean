/-
Numerals: digits, then perhaps a point and further digits.

The longest numeral that a text begins with is read, and a decimal is written with a digit
for each of its places.
-/

import Abacus.Decimal

namespace Abacus

structure Numeral where
  whole : List Char
  fraction : Option (List Char)
deriving DecidableEq

namespace Numeral

/-! ### Text -/

def chars (numeral : Numeral) : List Char :=
  match numeral.fraction with
  | none => numeral.whole
  | some digits => numeral.whole ++ '.' :: digits

/-- Without a point no zeros can be appended. -/
def padded (numeral : Numeral) (zeros : Nat) : Numeral :=
  { numeral with fraction := numeral.fraction.map (· ++ List.replicate zeros '0') }

def read (source : List Char) : Numeral × List Char :=
  let whole := source.takeWhile Char.isDigit
  match source.dropWhile Char.isDigit with
  | '.' :: rest =>
      (⟨whole, some (rest.takeWhile Char.isDigit)⟩, rest.dropWhile Char.isDigit)
  | rest => (⟨whole, none⟩, rest)

theorem read_chars_append (source : List Char) :
    (read source).1.chars ++ (read source).2 = source := by
  have whole := @List.takeWhile_append_dropWhile _ Char.isDigit source
  unfold read
  split
  · next rest point =>
      rw [point] at whole
      simp only [chars, List.append_assoc, List.cons_append,
        List.takeWhile_append_dropWhile]
      exact whole
  · exact whole

/-! ### Meaning -/

def decimal (numeral : Numeral) : Decimal :=
  let digits := numeral.fraction.getD []
  { coefficient := Nat.ofDigitChars 10 (numeral.whole ++ digits) 0
    places := digits.length }

def value? (numeral : Numeral) : Option Binary64 :=
  numeral.decimal.code?.map (Binary64.ofCode false)

end Numeral

namespace Decimal

/-- Zeros stand in front until there is a digit before the places. -/
def digits (decimal : Decimal) : List Char :=
  let digits := Nat.toDigits 10 decimal.coefficient
  List.replicate (decimal.places + 1 - digits.length) '0' ++ digits

def numeral (decimal : Decimal) : Numeral :=
  let point := decimal.digits.length - decimal.places
  { whole := decimal.digits.take point
    fraction :=
      if decimal.places = 0 then none else some (decimal.digits.drop point) }

theorem places_lt_length_digits (decimal : Decimal) :
    decimal.places < decimal.digits.length := by
  simp only [digits, List.length_append, List.length_replicate]
  omega

theorem ofDigitChars_digits (decimal : Decimal) :
    Nat.ofDigitChars 10 decimal.digits 0 = decimal.coefficient := by
  simp only [digits, Nat.ofDigitChars_append, Nat.ofDigitChars_replicate_zero,
    Nat.mul_zero, Nat.ofDigitChars_ten_toDigits]

theorem isDigit_of_mem_digits (decimal : Decimal) (digit : Char)
    (member : digit ∈ decimal.digits) : digit.isDigit = true := by
  rcases List.mem_append.mp member with inFront | inCoefficient
  · rw [List.eq_of_mem_replicate inFront]
    rfl
  · exact Nat.isDigit_of_mem_toDigits (by decide) (by decide) inCoefficient

/-- The numeral written for a decimal denotes that decimal. -/
theorem numeral_decimal (decimal : Decimal) : decimal.numeral.decimal = decimal := by
  have longer := places_lt_length_digits decimal
  have coefficient := ofDigitChars_digits decimal
  cases decimal with
  | mk number places =>
      simp only [numeral, Numeral.decimal]
      simp only at longer coefficient
      by_cases whole : places = 0
      · subst whole
        simp only [if_true, Option.getD_none, List.append_nil, Nat.sub_zero,
          List.take_length, coefficient, List.length_nil]
      · simp only [if_neg whole, Option.getD_some, List.take_append_drop,
          coefficient, List.length_drop]
        congr 1
        omega

/-! ### Appending zeros -/

private theorem toDigits_mul_pow (number zeros : Nat) (positive : 0 < number) :
    Nat.toDigits 10 (number * Nat.pow 10 zeros) =
      Nat.toDigits 10 number ++ List.replicate zeros '0' := by
  induction zeros with
  | zero =>
      simp only [Nat.pow_eq, Nat.pow_zero, Nat.mul_one, List.replicate_zero, List.append_nil]
  | succ zeros ih =>
      have larger : 0 < number * Nat.pow 10 zeros :=
        Nat.mul_pos positive (Nat.pow_pos (by decide))
      have shifted := Nat.toDigits_append_toDigits (by decide : 1 < 10) larger
        (by decide : 0 < 10)
      rw [Nat.toDigits_zero, ih, Nat.add_zero, List.append_assoc] at shifted
      rw [List.replicate_succ', shifted]
      congr 1
      rw [Nat.pow_eq, Nat.pow_eq, Nat.pow_succ, Nat.mul_comm 10, Nat.mul_assoc]

private theorem digits_mul_pow (coefficient places zeros : Nat) :
    (Decimal.mk (coefficient * Nat.pow 10 zeros) (places + zeros)).digits =
      (Decimal.mk coefficient places).digits ++ List.replicate zeros '0' := by
  rcases Nat.eq_zero_or_pos coefficient with zero | positive
  · subst zero
    simp only [digits, Nat.zero_mul, Nat.toDigits_zero, List.length_singleton,
      Nat.add_sub_cancel]
    rw [← List.replicate_append_replicate, List.append_assoc, List.append_assoc]
    congr 1
    rw [← List.replicate_succ', List.replicate_succ]
    rfl
  · simp only [digits, toDigits_mul_pow coefficient zeros positive, List.length_append,
      List.length_replicate, List.append_assoc]
    congr 2
    omega

theorem numeral_mul_pow (coefficient places zeros : Nat) (fractional : places ≠ 0) :
    (Decimal.mk (coefficient * Nat.pow 10 zeros) (places + zeros)).numeral =
      (Decimal.mk coefficient places).numeral.padded zeros := by
  have longer := places_lt_length_digits (Decimal.mk coefficient places)
  simp only at longer
  have more : places + zeros ≠ 0 := by omega
  simp only [numeral, Numeral.padded, digits_mul_pow, List.length_append,
    List.length_replicate, if_neg fractional, if_neg more, Option.map_some]
  have point :
      (Decimal.mk coefficient places).digits.length + zeros - (places + zeros) =
        (Decimal.mk coefficient places).digits.length - places := by
    omega
  rw [point, List.take_append_of_le_length (Nat.sub_le _ _),
    List.drop_append_of_le_length (Nat.sub_le _ _)]

end Decimal
end Abacus
