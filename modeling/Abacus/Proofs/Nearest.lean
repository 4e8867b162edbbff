/-
The nearest magnitude.

The code that is computed for a quotient has a magnitude to which no other one is closer,
whether that magnitude is finite or not; only then is it checked to be finite.  So a
magnitude that is rounded to some places gives a decimal which is read as a magnitude that
is rounded to the same decimal.
-/

import Mathlib.Data.Nat.Dist
import Mathlib.Order.Monotone.Basic
import Mathlib.Tactic.Ring
import Abacus.Binary64.Text

namespace Abacus

/-! ### The nearest natural -/

theorem le_roundHalfEven_of_mul_le {whole numerator denominator : Nat}
    (positive : 0 < denominator) (below : whole * denominator ≤ numerator) :
    whole ≤ roundHalfEven numerator denominator := by
  have quotient : whole ≤ numerator / denominator := (Nat.le_div_iff_mul_le positive).mpr below
  unfold roundHalfEven
  simp only
  split
  · exact quotient
  · split <;> omega

theorem roundHalfEven_le_of_le_mul {whole numerator denominator : Nat}
    (positive : 0 < denominator) (above : numerator ≤ whole * denominator) :
    roundHalfEven numerator denominator ≤ whole := by
  apply Nat.le_of_not_lt
  intro larger
  have excess := two_mul_roundHalfEven_mul_le numerator denominator
  have next := Nat.mul_le_mul_right denominator larger
  rw [Nat.succ_mul] at next
  omega

theorem two_mul_dist_roundHalfEven_le (numerator : Nat) {denominator : Nat}
    (positive : 0 < denominator) :
    2 * Nat.dist (roundHalfEven numerator denominator * denominator) numerator ≤ denominator := by
  have excess := two_mul_roundHalfEven_mul_le numerator denominator
  have deficit := two_mul_le_roundHalfEven_mul numerator denominator positive
  unfold Nat.dist
  omega

/-- No natural is closer to the quotient than the rounded one. -/
theorem dist_roundHalfEven_le (numerator other : Nat) {denominator : Nat}
    (positive : 0 < denominator) :
    Nat.dist (roundHalfEven numerator denominator * denominator) numerator ≤
      Nat.dist (other * denominator) numerator := by
  have half := two_mul_dist_roundHalfEven_le numerator positive
  rcases Nat.lt_trichotomy (roundHalfEven numerator denominator) other with
    smaller | same | larger
  · have next := Nat.mul_le_mul_right denominator smaller
    rw [Nat.succ_mul] at next
    unfold Nat.dist at *
    omega
  · rw [same]
  · have next := Nat.mul_le_mul_right denominator larger
    rw [Nat.succ_mul] at next
    unfold Nat.dist at *
    omega

/-- A natural at most half a unit away is the rounded quotient, if it is even where it is
just half a unit away. -/
theorem roundHalfEven_eq_of_close {whole numerator denominator : Nat}
    (positive : 0 < denominator)
    (close : 2 * Nat.dist (whole * denominator) numerator ≤ denominator)
    (tie : 2 * Nat.dist (whole * denominator) numerator = denominator → whole % 2 = 0) :
    roundHalfEven numerator denominator = whole := by
  have parts := Nat.div_add_mod numerator denominator
  have bound := Nat.mod_lt numerator positive
  rw [Nat.mul_comm] at parts
  have lower : numerator / denominator ≤ whole := by
    apply Nat.le_of_not_lt
    intro larger
    have next := Nat.mul_le_mul_right denominator larger
    rw [Nat.succ_mul] at next
    unfold Nat.dist at close
    omega
  have upper : whole ≤ numerator / denominator + 1 := by
    apply Nat.le_of_not_lt
    intro larger
    have next := Nat.mul_le_mul_right denominator larger
    rw [Nat.succ_mul, Nat.add_mul] at next
    unfold Nat.dist at close
    omega
  unfold roundHalfEven
  simp only
  rcases Nat.lt_or_ge (numerator / denominator) whole with rounded | exact
  · have next : whole = numerator / denominator + 1 := by omega
    rw [next, Nat.add_mul] at close tie
    unfold Nat.dist at close tie
    split <;> [omega; split] <;> omega
  · have same : whole = numerator / denominator := by omega
    rw [same] at close tie
    unfold Nat.dist at close tie
    split <;> [omega; split] <;> omega

theorem roundHalfEven_even_of_dist {numerator denominator : Nat} (positive : 0 < denominator)
    (half : 2 * Nat.dist (roundHalfEven numerator denominator * denominator) numerator =
      denominator) :
    roundHalfEven numerator denominator % 2 = 0 := by
  apply roundHalfEven_even_of_half
  have parts := Nat.div_add_mod numerator denominator
  have bound := Nat.mod_lt numerator positive
  rw [Nat.mul_comm] at parts
  unfold roundHalfEven Nat.dist at half
  simp only at half
  split at half
  · omega
  · split at half
    · rw [Nat.add_mul] at half
      omega
    · omega

theorem pow_ten_pos (places : Nat) : 0 < Nat.pow 10 places :=
  Nat.pow_pos (by decide)

theorem pow_ten (places : Nat) : Nat.pow 10 places = Nat.pow 5 places * Nat.pow 2 places :=
  Nat.mul_pow 5 2 places

theorem pow_two_pos (places : Nat) : 0 < Nat.pow 2 places :=
  Nat.pow_pos (by decide)

theorem pow_two_lt {few many : Nat} (more : few < many) : Nat.pow 2 few < Nat.pow 2 many :=
  Nat.pow_lt_pow_right (by decide) more

namespace Binary64

/-! ### Magnitudes rise with their codes -/

theorem units_block (block : Nat) {fraction : Nat} (small : fraction < Nat.pow 2 52) :
    units (block * Nat.pow 2 52 + fraction) =
      if block = 0 then fraction
      else (Nat.pow 2 52 + fraction) * Nat.pow 2 (block - 1) := by
  have positive : 0 < Nat.pow 2 52 := Nat.lt_of_le_of_lt (Nat.zero_le _) small
  by_cases first : block = 0
  · rw [if_pos first, first, Nat.zero_mul, Nat.zero_add, units_of_lt fraction small]
  · have large : ¬ block * Nat.pow 2 52 + fraction < Nat.pow 2 52 := by
      have next := Nat.mul_le_mul_right (Nat.pow 2 52) (Nat.pos_of_ne_zero first)
      omega
    have quotient : (block * Nat.pow 2 52 + fraction) / Nat.pow 2 52 = block := by
      rw [Nat.mul_comm, Nat.mul_add_div positive, Nat.div_eq_of_lt small, Nat.add_zero]
    have remainder : (block * Nat.pow 2 52 + fraction) % Nat.pow 2 52 = fraction := by
      rw [Nat.mul_add_mod_self_right, Nat.mod_eq_of_lt small]
    rw [units, if_neg large, if_neg first, quotient, remainder]

/-- A significand of at most 53 binary digits, so many blocks further: only in the first
block may it have fewer. -/
theorem units_shifted {shift significand : Nat}
    (normal : shift = 0 ∨ Nat.pow 2 52 ≤ significand)
    (bounded : significand ≤ 2 * Nat.pow 2 52) :
    units (shift * Nat.pow 2 52 + significand) = significand * Nat.pow 2 shift := by
  have positive := pow_two_pos 52
  rcases Nat.lt_or_ge significand (Nat.pow 2 52) with subnormal | large
  · have first : shift = 0 := normal.resolve_right (Nat.not_le_of_lt subnormal)
    rw [first, Nat.zero_mul, Nat.zero_add, units_of_lt significand subnormal]
    exact (Nat.mul_one significand).symm
  · rcases Nat.lt_or_ge significand (2 * Nat.pow 2 52) with inside | carries
    · have place : shift * Nat.pow 2 52 + significand =
          (shift + 1) * Nat.pow 2 52 + (significand - Nat.pow 2 52) := by
        rw [Nat.succ_mul]
        omega
      rw [place, units_block _ (by omega), if_neg (Nat.succ_ne_zero shift), Nat.add_sub_cancel,
        Nat.add_sub_cancel' large]
    · have full : significand = 2 * Nat.pow 2 52 := Nat.le_antisymm bounded carries
      have place : shift * Nat.pow 2 52 + significand = (shift + 2) * Nat.pow 2 52 + 0 := by
        rw [full, Nat.add_mul, Nat.add_zero]
      rw [place, units_block _ positive, if_neg (Nat.succ_ne_zero (shift + 1)), Nat.add_zero,
        full, show shift + 2 - 1 = shift + 1 from rfl]
      simp only [Nat.pow_eq, Nat.pow_succ]
      ring

theorem units_succ (code : Nat) :
    units (code + 1) = units code + Nat.pow 2 (code / Nat.pow 2 52 - 1) := by
  have positive := pow_two_pos 52
  have parts := Nat.div_add_mod code (Nat.pow 2 52)
  have small := Nat.mod_lt code positive
  rw [Nat.mul_comm] at parts
  generalize code / Nat.pow 2 52 = block at parts
  generalize code % Nat.pow 2 52 = fraction at parts small
  subst parts
  rw [units_block block small]
  rcases Nat.lt_or_ge (fraction + 1) (Nat.pow 2 52) with inside | carries
  · rw [Nat.add_assoc, units_block block inside]
    split
    · next first => simp only [first, Nat.zero_sub, Nat.pow_eq, Nat.pow_zero]
    · rw [← Nat.add_assoc, Nat.succ_mul]
  · have full : fraction + 1 = Nat.pow 2 52 := by omega
    have place : block * Nat.pow 2 52 + fraction + 1 = (block + 1) * Nat.pow 2 52 + 0 := by
      rw [Nat.succ_mul]
      omega
    rw [place, units_block _ positive, if_neg (Nat.succ_ne_zero block), Nat.add_zero,
      Nat.add_sub_cancel]
    split
    · next first =>
        simp only [first, Nat.zero_sub, Nat.pow_eq, Nat.pow_zero, Nat.mul_one] at full ⊢
        exact full.symm
    · next later =>
        obtain ⟨outer, rfl⟩ := Nat.exists_eq_add_one_of_ne_zero later
        have twice : (Nat.pow 2 52 + fraction).succ = 2 * Nat.pow 2 52 := by omega
        rw [← Nat.succ_mul, twice, Nat.add_sub_cancel]
        simp only [Nat.pow_eq, Nat.pow_succ]
        ring

theorem units_strictMono : StrictMono units := by
  apply strictMono_nat_of_lt_succ
  intro code
  rw [units_succ]
  exact Nat.lt_add_of_pos_right (pow_two_pos _)

/-- On the grid of a shift lie all magnitudes, except those too small for it. -/
theorem units_grid (shift code : Nat) :
    (∃ multiple, units code = multiple * Nat.pow 2 shift) ∨
      (shift ≠ 0 ∧ units code < Nat.pow 2 52 * Nat.pow 2 shift) := by
  have positive := pow_two_pos 52
  rcases Nat.lt_or_ge code (shift * Nat.pow 2 52 + Nat.pow 2 52) with small | large
  · by_cases first : shift = 0
    · refine Or.inl ⟨units code, ?_⟩
      rw [first]
      exact (Nat.mul_one _).symm
    · have below := units_strictMono small
      rw [units_shifted (Or.inr (Nat.le_refl _)) (by omega)] at below
      exact Or.inr ⟨first, below⟩
  · rw [ge_iff_le, ← Nat.succ_mul, ← Nat.le_div_iff_mul_le positive] at large
    have parts := Nat.div_add_mod code (Nat.pow 2 52)
    have inBlock := units_block (code / Nat.pow 2 52) (Nat.mod_lt code positive)
    rw [Nat.mul_comm, parts, if_neg (by omega)] at inBlock
    obtain ⟨more, further⟩ := Nat.exists_eq_add_of_le (Nat.le_sub_one_of_lt large)
    refine Or.inl ⟨(Nat.pow 2 52 + code % Nat.pow 2 52) * Nat.pow 2 more, ?_⟩
    rw [inBlock, further]
    simp only [Nat.pow_eq, Nat.pow_add]
    ring

/-! ### The nearest magnitude -/

/-- The code nearest to a quotient of units, be it that of a finite magnitude or not. -/
def nearestCode (scaled denominator : Nat) : Nat :=
  let shift := Nat.log2 (scaled / denominator) - 52
  shift * Nat.pow 2 52 + roundHalfEven scaled (denominator * Nat.pow 2 shift)

theorem nearestCode?_eq (numerator : Nat) {denominator : Nat} (positive : 0 < denominator) :
    nearestCode? numerator denominator =
      if nearestCode (numerator * Nat.pow 2 unitPlaces) denominator < infinityCode then
        some (nearestCode (numerator * Nat.pow 2 unitPlaces) denominator)
      else none := by
  unfold nearestCode?
  split
  · next zero =>
      have exact := roundHalfEven_mul_self 0 (denominator * Nat.pow 2 0)
        (Nat.mul_pos positive (pow_two_pos _))
      rw [Nat.zero_mul] at exact
      have first : nearestCode (numerator * Nat.pow 2 unitPlaces) denominator = 0 := by
        rw [zero, nearestCode, Nat.zero_mul, Nat.zero_div]
        simp only [Nat.log2_zero, Nat.zero_sub, Nat.zero_mul, exact]
      rw [first]
      rfl
  · rw [if_neg (Nat.ne_of_gt positive)]
    rfl

/-- What a quotient is shifted by leaves 53 binary digits, or fewer where it is not shifted. -/
private theorem log2_sub_bounds (quotient : Nat) :
    (Nat.log2 quotient - 52 = 0 ∨
      Nat.pow 2 52 * Nat.pow 2 (Nat.log2 quotient - 52) ≤ quotient) ∧
      quotient < 2 * Nat.pow 2 52 * Nat.pow 2 (Nat.log2 quotient - 52) := by
  have above : quotient < 2 ^ (quotient.log2 + 1) := Nat.lt_log2_self
  simp only [Nat.pow_eq]
  constructor
  · rcases Nat.eq_zero_or_pos (quotient.log2 - 52) with few | many
    · exact Or.inl few
    · have digits : quotient ≠ 0 := by
        rintro rfl
        exact absurd many (by decide)
      have place : 52 + (quotient.log2 - 52) = quotient.log2 := by omega
      rw [← Nat.pow_add, place]
      exact Or.inr (Nat.log2_self_le digits)
  · have place : quotient.log2 + 1 ≤ 1 + 52 + (quotient.log2 - 52) := by omega
    have wider := Nat.pow_le_pow_right (show 0 < 2 by decide) place
    rw [Nat.pow_add, Nat.pow_add] at wider
    exact Nat.lt_of_lt_of_le above wider

private theorem mul_grid (multiple shift denominator : Nat) :
    multiple * Nat.pow 2 shift * denominator = multiple * (denominator * Nat.pow 2 shift) := by
  rw [Nat.mul_assoc, Nat.mul_comm (Nat.pow 2 shift)]

theorem exists_significand (scaled : Nat) {denominator : Nat} (positive : 0 < denominator) :
    ∃ shift, nearestCode scaled denominator =
        shift * Nat.pow 2 52 + roundHalfEven scaled (denominator * Nat.pow 2 shift) ∧
      units (nearestCode scaled denominator) =
        roundHalfEven scaled (denominator * Nat.pow 2 shift) * Nat.pow 2 shift ∧
      (shift ≠ 0 → Nat.pow 2 52 * (denominator * Nat.pow 2 shift) ≤ scaled) := by
  obtain ⟨least, most⟩ := log2_sub_bounds (scaled / denominator)
  unfold nearestCode
  simp only
  generalize Nat.log2 (scaled / denominator) - 52 = shift at least most
  have scale : 0 < denominator * Nat.pow 2 shift := Nat.mul_pos positive (pow_two_pos _)
  rw [Nat.div_lt_iff_lt_mul positive, mul_grid] at most
  rw [Nat.le_div_iff_mul_le positive, mul_grid] at least
  refine ⟨shift, rfl, units_shifted ?_ ?_, ?_⟩
  · exact least.imp_right (le_roundHalfEven_of_mul_le scale)
  · exact roundHalfEven_le_of_le_mul scale (Nat.le_of_lt most)
  · exact least.resolve_left

/-- No magnitude is closer to the quotient than that of its nearest code. -/
theorem dist_units_nearestCode_le (scaled other : Nat) {denominator : Nat}
    (positive : 0 < denominator) :
    Nat.dist (units (nearestCode scaled denominator) * denominator) scaled ≤
      Nat.dist (units other * denominator) scaled := by
  obtain ⟨shift, _, nearest, least⟩ := exists_significand scaled positive
  have scale : 0 < denominator * Nat.pow 2 shift := Nat.mul_pos positive (pow_two_pos _)
  rw [nearest, mul_grid]
  rcases units_grid shift other with ⟨multiple, isMultiple⟩ | ⟨shifted, below⟩
  · rw [isMultiple, mul_grid]
    exact dist_roundHalfEven_le scaled multiple scale
  · -- the least point of the grid with all its digits is between the two
    have closer := dist_roundHalfEven_le scaled (Nat.pow 2 52) scale
    have between := Nat.mul_le_mul_right denominator (Nat.le_of_lt below)
    have reached := least shifted
    rw [mul_grid] at between
    unfold Nat.dist at *
    omega

/-- Where the magnitude of another code is just as close, the nearest code is even. -/
theorem nearestCode_even_of_tie {scaled other denominator : Nat} (positive : 0 < denominator)
    (different : other ≠ nearestCode scaled denominator)
    (tie : Nat.dist (units (nearestCode scaled denominator) * denominator) scaled =
      Nat.dist (units other * denominator) scaled) :
    nearestCode scaled denominator % 2 = 0 := by
  obtain ⟨shift, place, nearest, least⟩ := exists_significand scaled positive
  have scale : 0 < denominator * Nat.pow 2 shift := Nat.mul_pos positive (pow_two_pos _)
  have half := two_mul_dist_roundHalfEven_le scaled scale
  have even := @roundHalfEven_even_of_dist scaled _ scale
  have closer := dist_roundHalfEven_le scaled (Nat.pow 2 52) scale
  rw [nearest, mul_grid] at tie
  rw [← units_strictMono.injective.ne_iff, nearest] at different
  rw [place]
  generalize roundHalfEven scaled (denominator * Nat.pow 2 shift) = significand at *
  have lastDigit : (shift * Nat.pow 2 52 + significand) % 2 = significand % 2 := by
    rw [Nat.pow_eq]
    omega
  rw [lastDigit]
  apply even
  rcases units_grid shift other with ⟨multiple, isMultiple⟩ | ⟨shifted, below⟩
  · -- two points of the grid are at least a step apart, and both are at most half a step away
    have apart : multiple ≠ significand := by
      rintro rfl
      exact different isMultiple
    rw [isMultiple, mul_grid] at tie
    rcases Nat.lt_or_gt_of_ne apart with smaller | larger
    · have next := Nat.mul_le_mul_right (denominator * Nat.pow 2 shift) smaller
      rw [Nat.succ_mul] at next
      unfold Nat.dist at *
      omega
    · have next := Nat.mul_le_mul_right (denominator * Nat.pow 2 shift) larger
      rw [Nat.succ_mul] at next
      unfold Nat.dist at *
      omega
  · have between := Nat.mul_lt_mul_of_pos_right below positive
    have reached := least shifted
    rw [mul_grid] at between
    unfold Nat.dist at *
    omega

/-- The nearest magnitude is finite up to halfway between the greatest finite one and the
first that is not, and no longer just there. -/
theorem nearestCode_lt_iff (scaled : Nat) {denominator : Nat} (positive : 0 < denominator) :
    nearestCode scaled denominator < infinityCode ↔
      2 * scaled < (units (infinityCode - 1) + units infinityCode) * denominator := by
  have closest (other : Nat) := dist_units_nearestCode_le scaled other positive
  have even := @nearestCode_even_of_tie scaled infinityCode denominator positive
  have step := Nat.mul_lt_mul_of_pos_right
    (units_strictMono (by decide : infinityCode - 1 < infinityCode)) positive
  rw [Nat.add_mul]
  generalize nearestCode scaled denominator = code at closest even ⊢
  constructor
  · intro finite
    have noGreater := Nat.mul_le_mul_right denominator
      (units_strictMono.monotone (Nat.le_sub_one_of_lt finite))
    have noFurther := closest infinityCode
    apply Nat.lt_of_not_le
    intro beyond
    have tie : Nat.dist (units code * denominator) scaled =
        Nat.dist (units infinityCode * denominator) scaled := by
      unfold Nat.dist at *
      omega
    have greatest : units code * denominator = units (infinityCode - 1) * denominator := by
      unfold Nat.dist at noFurther
      omega
    have last : code = infinityCode - 1 :=
      units_strictMono.injective (Nat.eq_of_mul_eq_mul_right positive greatest)
    have isEven := even (Nat.ne_of_gt finite) tie
    rw [last] at isEven
    cases isEven
  · intro below
    apply Nat.lt_of_not_le
    intro infinite
    have noSmaller := Nat.mul_le_mul_right denominator (units_strictMono.monotone infinite)
    have noFurther := closest (infinityCode - 1)
    unfold Nat.dist at noFurther
    omega

theorem nearestCode_eq_of_exact {code scaled denominator : Nat} (positive : 0 < denominator)
    (exact : units code * denominator = scaled) : nearestCode scaled denominator = code := by
  have closest := dist_units_nearestCode_le scaled code positive
  rw [exact, Nat.dist_self] at closest
  have same := (Nat.eq_of_dist_eq_zero (Nat.le_zero.mp closest)).trans exact.symm
  exact units_strictMono.injective (Nat.eq_of_mul_eq_mul_right positive same)

/-- Above the greatest finite magnitude there is room for far more than a unit of decimals. -/
private theorem units_add_lt {code : Nat} (finite : code < infinityCode) :
    units code + Nat.pow 2 unitPlaces < units infinityCode := by
  have greatest : units code ≤ units (infinityCode - 1) :=
    units_strictMono.monotone (Nat.le_sub_one_of_lt finite)
  have last : units infinityCode = _ := units_succ (infinityCode - 1)
  have fewer : unitPlaces < (infinityCode - 1) / Nat.pow 2 52 - 1 := by decide
  rw [last]
  exact Nat.add_lt_add_of_le_of_lt greatest (pow_two_lt fewer)

/-- A quotient within half a unit of decimals of a finite magnitude is not out of range. -/
theorem nearestCode_lt_of_close {code scaled denominator : Nat} (positive : 0 < denominator)
    (finite : code < infinityCode)
    (close : 2 * Nat.dist (units code * denominator) scaled ≤ Nat.pow 2 unitPlaces) :
    nearestCode scaled denominator < infinityCode := by
  rw [← units_strictMono.lt_iff_lt]
  have closest := dist_units_nearestCode_le scaled code positive
  have room := Nat.mul_lt_mul_of_pos_right (units_add_lt finite) positive
  have unit := Nat.le_mul_of_pos_right (Nat.pow 2 unitPlaces) positive
  apply Nat.lt_of_mul_lt_mul_right (a := denominator)
  rw [Nat.add_mul] at room
  generalize Nat.pow 2 unitPlaces = some at close room unit
  unfold Nat.dist at close closest
  omega

end Binary64

/-! ### Decimals of magnitudes -/

open Binary64

theorem Decimal.code?_ofCode {code : Nat} (finite : code < infinityCode) :
    (Decimal.ofCode code).code? = some code := by
  have positive := pow_ten_pos unitPlaces
  have exact : units code * Nat.pow 10 unitPlaces =
      units code * Nat.pow 5 unitPlaces * Nat.pow 2 unitPlaces := by
    rw [pow_ten, Nat.mul_assoc]
  simp only [Decimal.code?, Decimal.ofCode]
  rw [nearestCode?_eq _ positive, nearestCode_eq_of_exact positive exact, if_pos finite]

namespace Binary64

/-- A magnitude rounded to some places is read as a magnitude that is rounded to the same. -/
theorem exists_code?_rounded {code : Nat} (finite : code < infinityCode) (places : Nat) :
    ∃ reread, (rounded code places).code? = some reread ∧
      rounded reread places = rounded code places := by
  have positive := pow_ten_pos places
  have unit := pow_two_pos unitPlaces
  have half := two_mul_dist_roundHalfEven_le (units code * Nat.pow 10 places) unit
  have even := @roundHalfEven_even_of_dist (units code * Nat.pow 10 places) _ unit
  simp only [rounded, Decimal.code?]
  generalize roundHalfEven (units code * Nat.pow 10 places) (Nat.pow 2 unitPlaces) =
    coefficient at half even ⊢
  rw [Nat.dist_comm] at half even
  have isFinite := nearestCode_lt_of_close positive finite half
  rw [nearestCode?_eq _ positive, if_pos isFinite]
  refine ⟨_, rfl, congrArg (Decimal.mk · places) ?_⟩
  -- what is read is no further away from the decimal than the magnitude it was written for
  have closest := dist_units_nearestCode_le (coefficient * Nat.pow 2 unitPlaces) code positive
  rw [Nat.dist_comm] at closest
  have noFurther := Nat.mul_le_mul_left 2 closest
  apply roundHalfEven_eq_of_close unit
  · exact Nat.le_trans noFurther half
  · intro tie
    apply even
    exact Nat.le_antisymm half (Nat.le_trans (Nat.le_of_eq tie.symm) noFurther)

end Binary64
end Abacus
