/-
The two texts of a value, both without an exponent.  `text` has the fewest digits that read
back as the value, and `fixed?` is rounded once to a given number of places.
-/

import Abacus.Numeral

namespace Abacus
namespace Binary64

/-! ### The fewest digits -/

/-- The nearer neighbour that reads back, on a grid with the step `10 ^ zeros / 10 ^ places`. -/
def candidate? (code zeros places : Nat) : Option Decimal :=
  let scaled := units code * Nat.pow 10 places
  let step := Nat.pow 10 zeros
  let lower := scaled / (step * Nat.pow 2 unitPlaces) * step
  let upper := lower + step
  let readsBack := fun (coefficient : Nat) =>
    (Decimal.mk coefficient places).code? == some code
  let nearer := scaled - lower * Nat.pow 2 unitPlaces < upper * Nat.pow 2 unitPlaces - scaled
  if readsBack lower && (nearer || !readsBack upper) then some ⟨lower, places⟩
  else if readsBack upper then some ⟨upper, places⟩
  else none

/-- From coarse to fine, as numbers of zeros and of places.  Grids that are coarser than the
first hold only zero and points over ten times too large. -/
def grids (code : Nat) : List (Nat × Nat) :=
  let length := (Nat.toDigits 10 (units code / Nat.pow 2 unitPlaces)).length
  (List.range (length + 1)).reverse.map (fun zeros => (zeros, 0)) ++
    (List.range unitPlaces).map (fun places => (0, places + 1))

def shortest (code : Nat) : Decimal :=
  ((grids code).findSome? fun grid => candidate? code grid.1 grid.2).getD
    (Decimal.ofCode code)

/-! ### A fixed number of places -/

def rounded (code places : Nat) : Decimal :=
  { coefficient := roundHalfEven (units code * Nat.pow 10 places) (Nat.pow 2 unitPlaces)
    places := places }

/-- Only zeros stand behind the first `unitPlaces` places, and none of these is computed. -/
def fixedNumeral (code places : Nat) : Numeral :=
  (rounded code (min places unitPlaces)).numeral.padded (places - unitPlaces)

private theorem roundHalfEven_exact (multiple places zeros : Nat) :
    roundHalfEven (multiple * Nat.pow 10 (places + zeros)) (Nat.pow 2 places) =
      multiple * Nat.pow 5 places * Nat.pow 10 zeros := by
  have tens : multiple * Nat.pow 10 (places + zeros) =
      multiple * Nat.pow 5 places * Nat.pow 10 zeros * Nat.pow 2 places := by
    simp only [Nat.pow_eq]
    rw [Nat.pow_add, show (10 : Nat) = 5 * 2 from rfl, Nat.mul_pow 5 2 places]
    ac_rfl
  rw [tens]
  exact roundHalfEven_mul_self _ _ (Nat.pow_pos (by decide))

private theorem padded_zero (numeral : Numeral) : numeral.padded 0 = numeral := by
  cases numeral with
  | mk whole fraction =>
      cases fraction with
      | none => rfl
      | some digits =>
          simp only [Numeral.padded, Option.map_some, List.replicate_zero, List.append_nil]

private theorem padded_exact (multiple places zeros : Nat) (fractional : places ≠ 0) :
    (Decimal.mk (roundHalfEven (multiple * Nat.pow 10 places) (Nat.pow 2 places))
        places).numeral.padded zeros =
      (Decimal.mk (roundHalfEven (multiple * Nat.pow 10 (places + zeros)) (Nat.pow 2 places))
        (places + zeros)).numeral := by
  have here := roundHalfEven_exact multiple places 0
  have one : Nat.pow 10 0 = 1 := rfl
  rw [Nat.add_zero, one, Nat.mul_one] at here
  rw [here, roundHalfEven_exact, Decimal.numeral_mul_pow _ _ _ fractional]

theorem fixedNumeral_eq (code places : Nat) :
    fixedNumeral code places = (rounded code places).numeral := by
  unfold fixedNumeral
  rcases Nat.le_total places unitPlaces with few | many
  · rw [Nat.min_eq_left few, Nat.sub_eq_zero_of_le few, padded_zero]
  · obtain ⟨zeros, sum⟩ := Nat.exists_eq_add_of_le many
    subst sum
    rw [Nat.min_eq_right many, Nat.add_sub_cancel_left]
    exact padded_exact (units code) unitPlaces zeros Nat.noConfusion

/-! ### Texts -/

def textWith (finite : Nat → Numeral) (value : Binary64) : String :=
  if value.isNaN then "NaN"
  else
    let sign := if value.negative then "-" else ""
    if value.isFinite then sign ++ String.ofList (finite value.code).chars
    else sign ++ "inf"

def text (value : Binary64) : String :=
  value.textWith fun code => (shortest code).numeral

def greatestPlaces : Nat :=
  65535

def fixed? (places : Nat) (value : Binary64) : Option String :=
  if places ≤ greatestPlaces then
    some (value.textWith fun code => fixedNumeral code places)
  else none

instance : ToString Binary64 :=
  ⟨text⟩

end Binary64
end Abacus
