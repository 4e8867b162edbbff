/-
The decimal that is printed.

It is a multiple of the last place to which no other multiple is closer, counted from the
exact number that the value stands for; where two are as close, its last digit is even.
-/

import Abacus.Proofs.NearestValue

namespace Abacus

/-! ### The form of a printed numeral -/

/-- A numeral with a digit for each place, and with a zero in front only where nothing else
stands before the point. -/
structure Numeral.HasPlaces (numeral : Numeral) (places : Nat) : Prop where
  wellFormed : numeral.WellFormed
  leading : numeral.whole.head? = some '0' → numeral.whole = ['0']
  places : numeral.fraction.map List.length = if places = 0 then none else some places

theorem head?_toDigits_ne_zero {number : Nat} (positive : 0 < number) :
    (Nat.toDigits 10 number).head? ≠ some '0' := by
  induction number using Nat.strong_induction_on with
  | _ number ih =>
      rw [Nat.toDigits_eq_if (by decide)]
      split
      · next small =>
          have digits : ∀ digit < 10, 0 < digit → some (Nat.digitChar digit) ≠ some '0' := by
            decide
          exact digits number small positive
      · next large =>
          have shorter := ih (number / 10) (by omega) (by omega)
          rw [List.head?_append_of_ne_nil _ Nat.toDigits_ne_nil]
          exact shorter

namespace Decimal

theorem head?_whole_numeral (decimal : Decimal)
    (zero : decimal.numeral.whole.head? = some '0') : decimal.numeral.whole = ['0'] := by
  have longer := decimal.places_lt_length_digits
  rcases Nat.lt_or_ge decimal.places (Nat.toDigits 10 decimal.coefficient).length with few | many
  · -- the digits are those of the coefficient, which begin with a zero only if it is zero
    have isDigits : decimal.digits = Nat.toDigits 10 decimal.coefficient := by
      rw [digits, Nat.sub_eq_zero_of_le few]
      rfl
    have starts : decimal.numeral.whole.head? = (Nat.toDigits 10 decimal.coefficient).head? := by
      simp only [numeral, isDigits]
      rw [List.head?_take, if_neg (by omega)]
    rcases Nat.eq_zero_or_pos decimal.coefficient with nothing | positive
    · rw [nothing, Nat.toDigits_zero] at isDigits few
      have noPlaces : decimal.places = 0 := Nat.lt_one_iff.mp few
      simp only [numeral, isDigits, noPlaces]
      rfl
    · rw [starts] at zero
      exact absurd zero (head?_toDigits_ne_zero positive)
  · -- one zero is left in front of the places
    obtain ⟨zeros, isZeros⟩ : ∃ zeros,
        decimal.places + 1 - (Nat.toDigits 10 decimal.coefficient).length = zeros + 1 :=
      Nat.exists_eq_succ_of_ne_zero (by omega)
    have length : decimal.digits.length - decimal.places = 1 := by
      simp only [digits, List.length_append, List.length_replicate]
      omega
    simp only [numeral, length]
    rw [digits, isZeros]
    rfl

theorem hasPlaces_numeral (decimal : Decimal) : decimal.numeral.HasPlaces decimal.places where
  wellFormed := decimal.wellFormed_numeral
  leading := decimal.head?_whole_numeral
  places := by
    have longer := decimal.places_lt_length_digits
    simp only [numeral]
    split
    · rfl
    · rw [Option.map_some, List.length_drop]
      congr 1
      omega

theorem getLast?_chars_numeral (decimal : Decimal) :
    decimal.numeral.chars.getLast? = decimal.digits.getLast? := by
  have longer := decimal.places_lt_length_digits
  by_cases whole : decimal.places = 0
  · simp only [numeral, Numeral.chars, whole, if_true, Nat.sub_zero, List.take_length]
  · have notEmpty : decimal.digits.drop (decimal.digits.length - decimal.places) ≠ [] := by
      rw [Ne, List.drop_eq_nil_iff]
      omega
    simp only [numeral, Numeral.chars, if_neg whole]
    rw [List.getLast?_append_of_ne_nil _ (List.cons_ne_nil _ _),
      List.getLast?_cons_of_ne_nil notEmpty, List.getLast?_drop, if_neg (by omega)]

theorem even_of_coefficient {decimal : Decimal} (even : decimal.coefficient % 2 = 0) :
    ∀ digit ∈ decimal.numeral.chars.getLast?, digit ∈ ['0', '2', '4', '6', '8'] := by
  intro digit last
  rw [getLast?_chars_numeral] at last
  obtain ⟨front, split⟩ := List.getLast?_eq_some_iff.mp last
  have isDigit : digit.isDigit = true :=
    decimal.isDigit_of_mem_digits digit (by rw [split]; simp)
  have lower : 48 ≤ digit.toNat := (Char.isDigit_iff_toNat.mp isDigit).1
  have upper : digit.toNat ≤ 57 := (Char.isDigit_iff_toNat.mp isDigit).2
  have coefficient := decimal.ofDigitChars_digits
  rw [split, Nat.ofDigitChars_append, Nat.ofDigitChars_cons, Nat.ofDigitChars_nil] at coefficient
  have zero : '0'.toNat = 48 := rfl
  have parity : digit.toNat = 48 ∨ digit.toNat = 50 ∨ digit.toNat = 52 ∨ digit.toNat = 54 ∨
      digit.toNat = 56 := by omega
  simpa [← Char.toNat_inj] using parity

theorem rational_numeral (decimal : Decimal) :
    decimal.numeral.rational = decimal.coefficient / 10 ^ decimal.places := by
  rw [Numeral.rational_eq, numeral_decimal, Nat.pow_eq]
  push_cast
  rfl

end Decimal

/-! ### The nearest multiple -/

def withSign (negative : Bool) (number : ℚ) : ℚ :=
  if negative then -number else number

theorem withSign_withSign (negative : Bool) (number : ℚ) :
    withSign negative (withSign negative number) = number := by
  cases negative with
  | false => rfl
  | true => exact neg_neg number

theorem abs_withSign_sub (negative : Bool) (left right : ℚ) :
    |withSign negative left - withSign negative right| = |left - right| := by
  cases negative with
  | false => rfl
  | true => rw [withSign, withSign, if_pos rfl, if_pos rfl, neg_sub_neg, abs_sub_comm]

theorem exists_eq_withSign (negative : Bool) (count : ℤ) (places : Nat) :
    ∃ turned : ℤ, (count : ℚ) / 10 ^ places = withSign negative (turned / 10 ^ places) := by
  cases negative with
  | false => exact ⟨count, rfl⟩
  | true =>
      refine ⟨-count, ?_⟩
      rw [withSign, if_pos rfl, Int.cast_neg, neg_div, neg_neg]

def Numeral.shown (negative : Bool) (numeral : Numeral) : ℚ :=
  withSign negative numeral.rational

/-- A numeral that shows the multiple of `1 / 10 ^ places` nearest to the number; where
another one is as near, its last digit is even. -/
structure Numeral.IsRounding (numeral : Numeral) (negative : Bool) (places : Nat) (number : ℚ) :
    Prop where
  multiple : ∃ count : ℤ, numeral.shown negative = count / 10 ^ places
  closest : ∀ count : ℤ,
    |numeral.shown negative - number| ≤ |(count : ℚ) / 10 ^ places - number|
  even : ∀ count : ℤ, (count : ℚ) / 10 ^ places ≠ numeral.shown negative →
    |numeral.shown negative - number| = |(count : ℚ) / 10 ^ places - number| →
    ∀ digit ∈ numeral.chars.getLast?, digit ∈ ['0', '2', '4', '6', '8']

/-- A rounded quotient is even if another natural is as close to the quotient. -/
theorem roundHalfEven_even_of_tie {numerator other denominator : Nat} (positive : 0 < denominator)
    (different : other ≠ roundHalfEven numerator denominator)
    (tie : Nat.dist (roundHalfEven numerator denominator * denominator) numerator =
      Nat.dist (other * denominator) numerator) :
    roundHalfEven numerator denominator % 2 = 0 := by
  have close := two_mul_dist_roundHalfEven_le numerator positive
  have even := @roundHalfEven_even_of_dist numerator denominator positive
  generalize roundHalfEven numerator denominator = rounded at *
  apply even
  -- the two naturals are at least one apart, and so far from the quotient on either side
  rcases Nat.lt_or_gt_of_ne different with below | above
  · have step := Nat.mul_le_mul_right denominator below
    rw [Nat.succ_mul] at step
    unfold Nat.dist at *
    omega
  · have step := Nat.mul_le_mul_right denominator above
    rw [Nat.succ_mul] at step
    unfold Nat.dist at *
    omega

namespace Binary64

theorem abs_sub_magnitude (count code places : Nat) :
    |(count : ℚ) / 10 ^ places - magnitude code| =
      Nat.dist (count * Nat.pow 2 unitPlaces) (units code * Nat.pow 10 places) /
        (2 ^ unitPlaces * (Nat.pow 10 places : Nat)) := by
  have distance := abs_magnitude_sub code count (pow_ten_pos places)
  rw [Nat.dist_comm, ← distance, abs_sub_comm, Nat.pow_eq]
  push_cast
  rfl

theorem coefficient_rounded (code places : Nat) :
    (rounded code places).coefficient =
      roundHalfEven (units code * Nat.pow 10 places) (Nat.pow 2 unitPlaces) := by
  simp only [rounded]

theorem rounded_closest (code places count : Nat) :
    |((rounded code places).coefficient : ℚ) / 10 ^ places - magnitude code| ≤
      |(count : ℚ) / 10 ^ places - magnitude code| := by
  have closest := dist_roundHalfEven_le (units code * Nat.pow 10 places) count
    (pow_two_pos unitPlaces)
  rw [abs_sub_magnitude, abs_sub_magnitude, coefficient_rounded]
  exact div_le_div_of_nonneg_right (Nat.cast_le.mpr closest) (parts_pos (pow_ten_pos places)).le

theorem rounded_even_of_tie {code places count : Nat}
    (different : count ≠ (rounded code places).coefficient)
    (tie : |((rounded code places).coefficient : ℚ) / 10 ^ places - magnitude code| =
      |(count : ℚ) / 10 ^ places - magnitude code|) :
    (rounded code places).coefficient % 2 = 0 := by
  rw [abs_sub_magnitude, abs_sub_magnitude, div_left_inj' (parts_pos (pow_ten_pos places)).ne',
    coefficient_rounded] at tie
  rw [coefficient_rounded] at different ⊢
  exact roundHalfEven_even_of_tie (pow_two_pos unitPlaces) different (Nat.cast_injective tie)

/-- A multiple below zero is further from a magnitude than zero. -/
theorem abs_magnitude_lt_of_neg {code places : Nat} {count : ℤ} (below : count < 0) :
    |((0 : Nat) : ℚ) / 10 ^ places - magnitude code| <
      |(count : ℚ) / 10 ^ places - magnitude code| := by
  have nonneg := magnitude_nonneg code
  have less : (count : ℚ) / 10 ^ places < 0 :=
    div_neg_of_neg_of_pos (Int.cast_lt_zero.mpr below) (pow_pos (by norm_num) places)
  rw [Nat.cast_zero, zero_div, zero_sub, abs_neg, abs_of_nonneg nonneg, abs_sub_comm,
    abs_of_nonneg (by linarith)]
  linarith

/-- Of all multiples, whatever their sign, none is closer to a magnitude than the rounded one. -/
theorem rounded_closest_of_int (code places : Nat) (count : ℤ) :
    |((rounded code places).coefficient : ℚ) / 10 ^ places - magnitude code| ≤
        |(count : ℚ) / 10 ^ places - magnitude code| ∧
      (count ≠ (rounded code places).coefficient →
        |((rounded code places).coefficient : ℚ) / 10 ^ places - magnitude code| =
          |(count : ℚ) / 10 ^ places - magnitude code| →
        (rounded code places).coefficient % 2 = 0) := by
  rcases lt_or_ge count 0 with below | above
  · have further := (rounded_closest code places 0).trans_lt (abs_magnitude_lt_of_neg below)
    exact ⟨further.le, fun _ tie => absurd tie further.ne⟩
  · obtain ⟨natural, rfl⟩ := Int.eq_ofNat_of_zero_le above
    rw [Int.cast_natCast]
    refine ⟨rounded_closest code places natural, ?_⟩
    intro different tie
    exact rounded_even_of_tie (fun same => different (congrArg Nat.cast same)) tie

/-- Behind the sign of the value, the rounded magnitude shows the multiple nearest to it. -/
theorem isRounding_rounded (value : Binary64) (places : Nat) :
    (rounded value.code places).numeral.IsRounding value.negative places value.rational := by
  have shown : (rounded value.code places).numeral.shown value.negative =
      withSign value.negative ((rounded value.code places).coefficient / 10 ^ places) :=
    congrArg (withSign value.negative) (Decimal.rational_numeral _)
  have number : value.rational = withSign value.negative (magnitude value.code) := rfl
  constructor
  · obtain ⟨count, isCount⟩ :=
      exists_eq_withSign value.negative (rounded value.code places).coefficient places
    rw [Int.cast_natCast] at isCount
    exact ⟨count, by rw [shown, isCount, withSign_withSign]⟩
  · intro count
    obtain ⟨turned, isTurned⟩ := exists_eq_withSign value.negative count places
    rw [shown, number, isTurned, abs_withSign_sub, abs_withSign_sub]
    exact (rounded_closest_of_int value.code places turned).1
  · intro count different tie
    obtain ⟨turned, isTurned⟩ := exists_eq_withSign value.negative count places
    rw [shown, number, isTurned, abs_withSign_sub, abs_withSign_sub] at tie
    apply Decimal.even_of_coefficient
    apply (rounded_closest_of_int value.code places turned).2 _ tie
    rintro rfl
    exact different (isTurned.trans shown.symm)

end Binary64

/-! ### Answers with a number of places -/

/-- A line with a finite value is answered by the sign of the value and a numeral with the
places of the session.  Of all numbers with so many places none is closer to the value than
the one that is shown, and on a tie its last digit is even. -/
theorem Session.reply_rounded (session : Session)
    (few : session.precision ≤ Binary64.greatestPlaces) {line : String} {value : Binary64}
    (valued : evaluate (Text.trim line) = .ok value) (finite : value.isFinite = true) :
    ∃ numeral : Numeral,
      (session.reply line).1 = .print
        ("= " ++ (if value.negative then "-" else "") ++ String.ofList numeral.chars) ∧
      numeral.HasPlaces session.precision ∧
      numeral.IsRounding value.negative session.precision value.rational := by
  refine ⟨(Binary64.rounded value.code session.precision).numeral, ?_,
    Decimal.hasPlaces_numeral _, value.isRounding_rounded session.precision⟩
  rw [session.reply_of_value valued, Binary64.fixed?_eq few, Binary64.inPlaces,
    Binary64.textWith_of_isFinite finite, String.append_assoc]
  rfl

/-- The value `-2.5` lies halfway between two whole numbers, and the even one is printed. -/
theorem Session.reply_rounded_of_tie :
    ((start 0).precision ≤ Binary64.greatestPlaces ∧
      evaluate (Text.trim " 5 / -2\n") = .ok ⟨0xc004000000000000⟩ ∧
      Binary64.isFinite ⟨0xc004000000000000⟩ = true) ∧
    ((start 0).reply " 5 / -2\n").1 = .print "= -2" ∧
    ∃ numeral : Numeral,
      ((start 0).reply " 5 / -2\n").1 = .print ("= " ++ "-" ++ String.ofList numeral.chars) ∧
      numeral.HasPlaces 0 ∧
      numeral.IsRounding true 0 (Binary64.rational ⟨0xc004000000000000⟩) := by
  have few : (start 0).precision ≤ Binary64.greatestPlaces := by decide
  have valued : evaluate (Text.trim " 5 / -2\n") = .ok ⟨0xc004000000000000⟩ := by decide +kernel
  have finite : Binary64.isFinite ⟨0xc004000000000000⟩ = true := by decide
  exact ⟨⟨few, valued, finite⟩, by decide +kernel, (start 0).reply_rounded few valued finite⟩

end Abacus
