/-
Rounding of a quotient of naturals to the nearest natural, a half going to the even one.
Reading a numeral and writing a number of places both end in one such rounding.
-/

namespace Abacus

def roundHalfEven (numerator denominator : Nat) : Nat :=
  let quotient := numerator / denominator
  let twice := 2 * (numerator % denominator)
  if twice < denominator then quotient
  else if denominator < twice then quotient + 1
  else quotient + quotient % 2

/-- The rounded quotient exceeds the exact one by at most a half. -/
theorem two_mul_roundHalfEven_mul_le (numerator denominator : Nat) :
    2 * (roundHalfEven numerator denominator * denominator) ≤
      2 * numerator + denominator := by
  have whole := Nat.div_add_mod numerator denominator
  rw [Nat.mul_comm] at whole
  unfold roundHalfEven
  simp only
  split
  · omega
  · split
    · rw [Nat.add_mul]
      omega
    · rcases Nat.mod_two_eq_zero_or_one (numerator / denominator) with even | odd
      · rw [even, Nat.add_zero]
        omega
      · rw [odd, Nat.add_mul]
        omega

/-- The rounded quotient falls short of the exact one by at most a half. -/
theorem two_mul_le_roundHalfEven_mul
    (numerator denominator : Nat) (positive : 0 < denominator) :
    2 * numerator ≤
      2 * (roundHalfEven numerator denominator * denominator) + denominator := by
  have whole := Nat.div_add_mod numerator denominator
  have bound := Nat.mod_lt numerator positive
  rw [Nat.mul_comm] at whole
  unfold roundHalfEven
  simp only
  split
  · omega
  · split
    · rw [Nat.add_mul]
      omega
    · rw [Nat.add_mul]
      have gain : 0 ≤ numerator / denominator % 2 * denominator := Nat.zero_le _
      omega

theorem roundHalfEven_even_of_half
    (numerator denominator : Nat)
    (half : 2 * (numerator % denominator) = denominator) :
    roundHalfEven numerator denominator % 2 = 0 := by
  unfold roundHalfEven
  simp only [half, Nat.lt_irrefl, if_false]
  omega

theorem roundHalfEven_mul_self (whole denominator : Nat) (positive : 0 < denominator) :
    roundHalfEven (whole * denominator) denominator = whole := by
  unfold roundHalfEven
  simp only [Nat.mul_mod_left, Nat.mul_zero, if_pos positive]
  exact Nat.mul_div_cancel whole positive

end Abacus
