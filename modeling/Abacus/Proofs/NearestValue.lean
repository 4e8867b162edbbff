/-
The value of a numeral: of the finite values the one nearest to its number, and of two that
are just as near the one whose last bit is clear.

Halfway between the greatest finite value and the power of two behind it is the limit.
Numerals below it have a value, and all others are out of range.
-/

import Mathlib.Algebra.Order.Field.Basic
import Mathlib.Algebra.Order.Ring.Rat
import Mathlib.Tactic.FieldSimp
import Mathlib.Tactic.Linarith
import Mathlib.Tactic.NormNum
import Abacus.Proofs.PrintedValues

namespace Abacus

/-! ### Numbers -/

def Numeral.rational (numeral : Numeral) : ℚ :=
  let fraction := numeral.fraction.getD []
  Nat.ofDigitChars 10 numeral.whole 0 + Nat.ofDigitChars 10 fraction 0 / 10 ^ fraction.length

theorem Numeral.rational_eq (numeral : Numeral) :
    numeral.rational =
      numeral.decimal.coefficient / (Nat.pow 10 numeral.decimal.places : Nat) := by
  simp only [rational, decimal]
  generalize numeral.fraction.getD [] = fraction
  have positive : (10 : ℚ) ^ fraction.length ≠ 0 := pow_ne_zero _ (by norm_num)
  have inFront := @Nat.ofDigitChars_eq_ofDigitChars_zero fraction
    (Nat.ofDigitChars 10 numeral.whole 0)
  rw [Nat.ofDigitChars_append, inFront, Nat.pow_eq]
  push_cast
  field_simp

namespace Binary64

/-- The number of a magnitude: a significand of 53 binary digits, or fewer in the first
block, times a power of two. -/
def magnitude (code : Nat) : ℚ :=
  let exponent := code / Nat.pow 2 52
  let fraction := code % Nat.pow 2 52
  if exponent = 0 then fraction * 2 ^ (-1074 : ℤ)
  else (2 ^ 52 + fraction) * 2 ^ ((exponent : ℤ) - 1075)

/-- The number that a finite value stands for; both zeros stand for `0`. -/
def rational (value : Binary64) : ℚ :=
  if value.negative then -magnitude value.code else magnitude value.code

/-- A finite value without a sign to which no other one is closer.  Where the number is
halfway between two values, the last bit of the nearest one is clear. -/
structure IsNearest (number : ℚ) (value : Binary64) : Prop where
  finite : value.isFinite = true
  unsigned : value.negative = false
  closest : ∀ other : Binary64, other.isFinite = true →
    |value.rational - number| ≤ |other.rational - number|
  even : ∀ other : Binary64, other.isFinite = true → other.rational ≠ value.rational →
    |value.rational - number| = |other.rational - number| → value.code % 2 = 0

theorem magnitude_eq (code : Nat) : magnitude code = units code / 2 ^ unitPlaces := by
  unfold magnitude units unitPlaces
  simp only [Nat.pow_eq]
  by_cases small : code < 2 ^ 52
  · rw [if_pos small, if_pos (Nat.div_eq_of_lt small), Nat.mod_eq_of_lt small, zpow_neg,
      zpow_ofNat, div_eq_mul_inv]
  · have block : code / 2 ^ 52 ≠ 0 := (Nat.div_pos (Nat.le_of_not_lt small) (by decide)).ne'
    obtain ⟨shift, isShift⟩ := Nat.exists_eq_add_one_of_ne_zero block
    have exponent : ((shift + 1 : Nat) : ℤ) - 1075 = shift - 1074 := by omega
    rw [if_neg small, if_neg block, isShift, Nat.add_sub_cancel, exponent,
      zpow_sub₀ two_ne_zero, zpow_natCast, zpow_ofNat, ← mul_div_assoc]
    push_cast
    rfl

theorem magnitude_nonneg (code : Nat) : 0 ≤ magnitude code := by
  rw [magnitude_eq]
  positivity

theorem magnitude_strictMono : StrictMono magnitude := by
  intro less more smaller
  have scale : (0 : ℚ) < 2 ^ unitPlaces := by positivity
  rw [magnitude_eq, magnitude_eq]
  exact div_lt_div_of_pos_right (Nat.cast_lt.mpr (units_strictMono smaller)) scale

/-! ### Nearness -/

private theorem cast_dist (left right : Nat) :
    ((Nat.dist left right : Nat) : ℚ) = |(left : ℚ) - right| := by
  rcases Nat.le_total left right with less | more
  · rw [Nat.dist_eq_sub_of_le less, Nat.cast_sub less, abs_sub_comm,
      abs_of_nonneg (sub_nonneg.mpr (Nat.cast_le.mpr less))]
  · rw [Nat.dist_eq_sub_of_le_right more, Nat.cast_sub more,
      abs_of_nonneg (sub_nonneg.mpr (Nat.cast_le.mpr more))]

theorem parts_pos {denominator : Nat} (positive : 0 < denominator) :
    (0 : ℚ) < 2 ^ unitPlaces * denominator :=
  mul_pos (pow_pos two_pos unitPlaces) (Nat.cast_pos.mpr positive)

/-- How far a magnitude is from a quotient, counted in parts that both are multiples of. -/
theorem abs_magnitude_sub (code numerator : Nat) {denominator : Nat} (positive : 0 < denominator) :
    |magnitude code - numerator / denominator| =
      Nat.dist (units code * denominator) (numerator * Nat.pow 2 unitPlaces) /
        (2 ^ unitPlaces * denominator) := by
  have parts := parts_pos positive
  have scale : (denominator : ℚ) ≠ 0 := Nat.cast_ne_zero.mpr positive.ne'
  rw [cast_dist, ← abs_of_pos parts, ← abs_div, magnitude_eq, Nat.pow_eq]
  generalize unitPlaces = places
  congr 1
  push_cast
  field_simp

/-- Whatever value is compared with a number that is not negative, some magnitude is as
close, and it is closer unless it is the number of the value. -/
theorem exists_magnitude_close (value : Binary64) {number : ℚ} (nonneg : 0 ≤ number) :
    ∃ code, |magnitude code - number| ≤ |value.rational - number| ∧
      (|magnitude code - number| = |value.rational - number| →
        magnitude code = value.rational) := by
  unfold rational
  cases value.negative with
  | false => exact ⟨value.code, le_refl _, fun _ => rfl⟩
  | true =>
      have below := magnitude_nonneg value.code
      have zero : magnitude 0 = 0 := by rw [magnitude_eq]; norm_num [units]
      have far : |-magnitude value.code - number| = magnitude value.code + number := by
        rw [← abs_neg, neg_sub, sub_neg_eq_add, add_comm, abs_of_nonneg (add_nonneg below nonneg)]
      refine ⟨0, ?_⟩
      rw [if_pos rfl, far, zero, zero_sub, abs_neg, abs_of_nonneg nonneg]
      constructor
      · linarith
      · intro same
        linarith

theorem rational_ofCode {code : Nat} (small : code < Nat.pow 2 63) :
    (ofCode false code).rational = magnitude code := by
  rw [rational, negative_ofCode false small, code_ofCode false small, if_neg Bool.false_ne_true]

theorem abs_nearestCode_sub_le (numerator other : Nat) {denominator : Nat}
    (positive : 0 < denominator) :
    |magnitude (nearestCode (numerator * Nat.pow 2 unitPlaces) denominator) -
        numerator / denominator| ≤ |magnitude other - numerator / denominator| := by
  have closest := dist_units_nearestCode_le (numerator * Nat.pow 2 unitPlaces) other positive
  rw [abs_magnitude_sub _ numerator positive, abs_magnitude_sub other numerator positive]
  exact div_le_div_of_nonneg_right (Nat.cast_le.mpr closest) (parts_pos positive).le

theorem nearestCode_even_of_abs_eq {numerator other denominator : Nat} (positive : 0 < denominator)
    (different : other ≠ nearestCode (numerator * Nat.pow 2 unitPlaces) denominator)
    (tie : |magnitude (nearestCode (numerator * Nat.pow 2 unitPlaces) denominator) -
        numerator / denominator| = |magnitude other - numerator / denominator|) :
    nearestCode (numerator * Nat.pow 2 unitPlaces) denominator % 2 = 0 := by
  rw [abs_magnitude_sub _ numerator positive, abs_magnitude_sub other numerator positive,
    div_left_inj' (parts_pos positive).ne'] at tie
  exact nearestCode_even_of_tie positive different (Nat.cast_injective tie)

theorem isNearest_nearestCode (numerator : Nat) {denominator : Nat} (positive : 0 < denominator)
    (finite : nearestCode (numerator * Nat.pow 2 unitPlaces) denominator < infinityCode) :
    IsNearest (numerator / denominator)
      (ofCode false (nearestCode (numerator * Nat.pow 2 unitPlaces) denominator)) := by
  have noFurther (other : Nat) := abs_nearestCode_sub_le numerator other positive
  have even (other : Nat) := @nearestCode_even_of_abs_eq numerator other denominator positive
  generalize nearestCode (numerator * Nat.pow 2 unitPlaces) denominator = code at *
  have small : code < Nat.pow 2 63 := Nat.lt_trans finite infinityCode_lt
  have nonneg : (0 : ℚ) ≤ numerator / denominator :=
    div_nonneg (Nat.cast_nonneg _) (Nat.cast_nonneg _)
  constructor
  · rw [isFinite, code_ofCode false small]
    exact decide_eq_true finite
  · exact negative_ofCode false small
  · intro other _
    obtain ⟨close, asClose, _⟩ := exists_magnitude_close other nonneg
    rw [rational_ofCode small]
    exact (noFurther close).trans asClose
  · intro other _ different same
    obtain ⟨close, asClose, isOther⟩ := exists_magnitude_close other nonneg
    rw [rational_ofCode small] at different same
    have tie := le_antisymm (noFurther close) (asClose.trans same.ge)
    rw [code_ofCode false small]
    apply even close _ tie
    rintro rfl
    exact different (isOther (tie.symm.trans same)).symm

/-- What lies between two numbers that are equally far from a third is closer to it. -/
private theorem abs_sub_lt_of_between {number left middle right : ℚ} (above : left < middle)
    (below : middle < right) (tie : |left - number| = |right - number|) :
    |middle - number| < |left - number| := by
  rcases le_total number middle with before | behind
  · have further := le_abs_self (right - number)
    rw [abs_of_nonneg (sub_nonneg.mpr before)]
    linarith
  · have further := neg_le_abs (left - number)
    rw [abs_of_nonpos (sub_nonpos.mpr behind)]
    linarith

theorem IsNearest.code_le {number : ℚ} {left right : Binary64} (isLeft : IsNearest number left)
    (isRight : IsNearest number right) : right.code ≤ left.code := by
  have rationals {value : Binary64} (isNearest : IsNearest number value) :
      value.rational = magnitude value.code := by
    rw [rational, isNearest.unsigned, if_neg Bool.false_ne_true]
  have finite : right.code < infinityCode := of_decide_eq_true isRight.finite
  apply Nat.le_of_not_lt
  intro less
  have apart := magnitude_strictMono less
  have tie := le_antisymm (isLeft.closest right isRight.finite) (isRight.closest left isLeft.finite)
  have evenLeft := isLeft.even right isRight.finite
  have evenRight := isRight.even left isLeft.finite
  rw [rationals isLeft, rationals isRight] at tie evenLeft evenRight
  have even := evenLeft apart.ne' tie
  have evenToo := evenRight apart.ne tie.symm
  -- between two even codes there is one more, and its value is closer
  have next : left.code + 1 < right.code := by omega
  have small : left.code + 1 < Nat.pow 2 63 := (next.trans finite).trans infinityCode_lt
  have between : (ofCode false (left.code + 1)).isFinite = true := by
    rw [isFinite, code_ofCode false small]
    exact decide_eq_true (next.trans finite)
  have closest := isLeft.closest _ between
  rw [rational_ofCode small, rationals isLeft] at closest
  exact absurd closest (not_le.mpr (abs_sub_lt_of_between
    (magnitude_strictMono (Nat.lt_succ_self left.code)) (magnitude_strictMono next) tie))

theorem IsNearest.unique {number : ℚ} {left right : Binary64} (isLeft : IsNearest number left)
    (isRight : IsNearest number right) : left = right := by
  have same : left.code = right.code :=
    Nat.le_antisymm (isRight.code_le isLeft) (isLeft.code_le isRight)
  rw [← ofCode_code left, ← ofCode_code right, isLeft.unsigned, isRight.unsigned, same]

private theorem cast_pow_sub_pow {few many : Nat} (less : few ≤ many) :
    ((2 ^ many - 2 ^ few : Nat) : ℚ) = 2 ^ many - 2 ^ few := by
  rw [Nat.cast_sub (Nat.pow_le_pow_right two_pos less)]
  push_cast
  rfl

theorem nearestCode_lt_infinityCode_iff (numerator : Nat) {denominator : Nat}
    (positive : 0 < denominator) :
    nearestCode (numerator * Nat.pow 2 unitPlaces) denominator < infinityCode ↔
      (numerator : ℚ) / denominator < 2 ^ 1024 - 2 ^ 970 := by
  have halfway : units (infinityCode - 1) + units infinityCode =
      2 * ((2 ^ 1024 - 2 ^ 970) * Nat.pow 2 unitPlaces) := by decide +kernel
  have limit := cast_pow_sub_pow (by decide : 970 ≤ 1024)
  rw [nearestCode_lt_iff _ positive, halfway, ← limit, div_lt_iff₀ (Nat.cast_pos.mpr positive),
    ← Nat.cast_mul, Nat.cast_lt]
  generalize 2 ^ 1024 - 2 ^ 970 = bound
  rw [Nat.mul_assoc, Nat.mul_right_comm, Nat.mul_lt_mul_left two_pos,
    Nat.mul_lt_mul_right (pow_two_pos unitPlaces)]

end Binary64

/-! ### Numerals in a line -/

open Binary64

theorem Numeral.value?_nearest (numeral : Numeral) :
    (numeral.rational < 2 ^ 1024 - 2 ^ 970 → ∃ value, numeral.value? = some value ∧
      value.IsNearest numeral.rational) ∧
    (2 ^ 1024 - 2 ^ 970 ≤ numeral.rational → numeral.value? = none) := by
  have positive := pow_ten_pos numeral.decimal.places
  have inRange := nearestCode_lt_infinityCode_iff numeral.decimal.coefficient positive
  rw [← numeral.rational_eq] at inRange
  rw [Numeral.value?, Decimal.code?, nearestCode?_eq _ positive]
  constructor
  · intro below
    have nearest := isNearest_nearestCode numeral.decimal.coefficient positive (inRange.mpr below)
    rw [← numeral.rational_eq] at nearest
    rw [if_pos (inRange.mpr below)]
    exact ⟨_, rfl, nearest⟩
  · intro beyond
    rw [if_neg (inRange.not.mpr (not_lt.mpr beyond))]
    rfl

/-- Where a scanner comes to a numeral, it answers with a number that has the value nearest
to the numeral, if the numeral is in range; otherwise it answers with a fault and stays. -/
theorem Scanner.next_of_numeral {numeral : Numeral} (wellFormed : numeral.WellFormed)
    {blanks rest : List Char} (position : Nat)
    (blank : ∀ character ∈ blanks, isBlank character = true)
    (longest : LongestBefore numeral.chars rest) :
    (numeral.rational < 2 ^ 1024 - 2 ^ 970 →
      ∃ value : Binary64,
        (∀ other : Binary64, other.IsNearest numeral.rational ↔ other = value) ∧
        (Scanner.mk (blanks ++ (numeral.chars ++ rest)) position).next =
          (.ok (.number (String.ofList numeral.chars) value (position + encodedSize blanks)),
            ⟨rest, position + encodedSize blanks + encodedSize numeral.chars⟩)) ∧
    (2 ^ 1024 - 2 ^ 970 ≤ numeral.rational →
      (Scanner.mk (blanks ++ (numeral.chars ++ rest)) position).next =
        (.error (.lexical ("numeral '" ++ String.ofList numeral.chars ++ "' is out of range")
            (position + encodedSize blanks)),
          ⟨blanks ++ (numeral.chars ++ rest), position⟩)) := by
  obtain ⟨valued, refused⟩ := numeral.value?_nearest
  constructor
  · intro below
    obtain ⟨value, denotes, nearest⟩ := valued below
    have spelled := Token.Spelled.number numeral value (position + encodedSize blanks)
      wellFormed denotes
    have span := Token.span_number numeral value (position + encodedSize blanks)
    have ends : (Token.number (String.ofList numeral.chars) value
        (position + encodedSize blanks)).EndsBefore rest := by
      intro _ _
      rw [span]
      exact longest
    have answered := next_of_token blank spelled rfl ends
    rw [Token.finish, span] at answered
    refine ⟨value, ?_, answered⟩
    intro other
    constructor
    · exact fun isNearest => isNearest.unique nearest
    · rintro rfl
      exact nearest
  · intro beyond
    have infinite := refused beyond
    exact next_of_refused blank (Refused.outOfRange numeral rest wellFormed longest infinite)

/-- The numeral is halfway between two values, of which the lower one has a clear last bit. -/
theorem Scanner.next_of_numeral_of_tie :
    (Numeral.mk "9007199254740993".toList (some ['0'])).rational = 9007199254740993 ∧
      (∀ other : Binary64, other.IsNearest 9007199254740993 ↔ other = ⟨0x4340000000000000⟩) ∧
      (Scanner.mk "\t 9007199254740993.0+1".toList 7).next =
        (.ok (.number "9007199254740993.0" ⟨0x4340000000000000⟩ 9), ⟨['+', '1'], 27⟩) := by
  have wellFormed : (Numeral.mk "9007199254740993".toList (some ['0'])).WellFormed := by
    refine ⟨List.cons_ne_nil _ _, List.all_eq_true.mp rfl, ?_⟩
    intro digits same
    cases same
    exact List.all_eq_true.mp rfl
  have longest : LongestBefore
      (Numeral.mk "9007199254740993".toList (some ['0'])).chars ['+', '1'] := by
    intro next first isNumeral
    cases first
    rcases isNumeral.digit_or_point '+' (by decide) with digit | point
    · cases digit
    · cases point
  have number : (Numeral.mk "9007199254740993".toList (some ['0'])).rational =
      9007199254740993 := by
    have whole : Nat.ofDigitChars 10 "9007199254740993".toList 0 = 9007199254740993 := by decide
    have fraction : Nat.ofDigitChars 10 ['0'] 0 = 0 := by decide
    simp only [Numeral.rational, Option.getD_some, whole, fraction]
    norm_num
  have inRange : (9007199254740993 : ℚ) < 2 ^ 1024 - 2 ^ 970 := by
    have bound : 9007199254740993 < 2 ^ 1024 - 2 ^ 970 := by decide +kernel
    rw [← cast_pow_sub_pow (by decide : 970 ≤ 1024)]
    exact Nat.cast_lt.mpr bound
  have blank : ∀ character ∈ ['\t', ' '], isBlank character = true :=
    List.all_eq_true.mp rfl
  have evaluated : (Scanner.mk "\t 9007199254740993.0+1".toList 7).next =
      (.ok (.number "9007199254740993.0" ⟨0x4340000000000000⟩ 9), ⟨['+', '1'], 27⟩) := by
    decide +kernel
  obtain ⟨value, nearest, answered⟩ :=
    (next_of_numeral wellFormed 7 blank longest).1 (number.trans_lt inRange)
  have same : ⟨0x4340000000000000⟩ = value :=
    Option.some.inj (congrArg (fun step => step.1.toOption.map Token.value)
      (evaluated.symm.trans answered))
  rw [← same, number] at nearest
  exact ⟨number, nearest, evaluated⟩

end Abacus
