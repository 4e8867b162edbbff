/-
Binary floating point numbers of 64 bits, kept as their bits: two values are one exactly when
their bits are.  The lower 63 bits are the `code` of the magnitude, and finite codes rise with
it.
-/

import Abacus.Rounding

namespace Abacus

structure Binary64 where
  bits : UInt64
deriving DecidableEq

namespace Binary64

/-! ### Parts of a value -/

def code (value : Binary64) : Nat :=
  value.bits.toNat % Nat.pow 2 63

def negative (value : Binary64) : Bool :=
  decide (Nat.pow 2 63 ≤ value.bits.toNat)

def infinityCode : Nat :=
  0x7ff0000000000000

def isFinite (value : Binary64) : Bool :=
  decide (value.code < infinityCode)

def isNaN (value : Binary64) : Bool :=
  decide (infinityCode < value.code)

def ofCode (negative : Bool) (code : Nat) : Binary64 :=
  ⟨UInt64.ofNat ((if negative then Nat.pow 2 63 else 0) + code)⟩

def zero : Binary64 :=
  ⟨0⟩

/-! ### Magnitudes -/

/-- The magnitude of a finite code in multiples of the least one, `2 ^ -1074`.  Each block of
`2 ^ 52` codes has twice the step of the block before. -/
def units (code : Nat) : Nat :=
  if code < Nat.pow 2 52 then code
  else (Nat.pow 2 52 + code % Nat.pow 2 52) * Nat.pow 2 (code / Nat.pow 2 52 - 1)

def unitPlaces : Nat :=
  1074

/-- The code nearest to a quotient, a tie going to the even code; none past the greatest finite
magnitude. -/
def nearestCode? (numerator denominator : Nat) : Option Nat :=
  if numerator = 0 then some 0
  else if denominator = 0 then none
  else
    let scaled := numerator * Nat.pow 2 unitPlaces
    -- without `shift` of its binary digits the quotient has the 53 of a significand, and a
    -- rounding that carries goes into the next block
    let shift := Nat.log2 (scaled / denominator) - 52
    let code := shift * Nat.pow 2 52 + roundHalfEven scaled (denominator * Nat.pow 2 shift)
    if code < infinityCode then some code else none

/-! ### Arithmetic -/

def toFloat (value : Binary64) : Float :=
  Float.ofBits value.bits

def ofFloat (number : Float) : Binary64 :=
  ⟨number.toBits⟩

instance : Add Binary64 :=
  ⟨fun left right => ofFloat (left.toFloat + right.toFloat)⟩

instance : Sub Binary64 :=
  ⟨fun left right => ofFloat (left.toFloat - right.toFloat)⟩

instance : Mul Binary64 :=
  ⟨fun left right => ofFloat (left.toFloat * right.toFloat)⟩

instance : Div Binary64 :=
  ⟨fun left right => ofFloat (left.toFloat / right.toFloat)⟩

instance : Neg Binary64 :=
  ⟨fun value => ⟨value.bits ^^^ 0x8000000000000000⟩⟩

/-! ### Small laws -/

theorem units_of_lt (code : Nat) (small : code < Nat.pow 2 52) : units code = code :=
  if_pos small

theorem nearestCode?_lt (numerator denominator code : Nat)
    (nearest : nearestCode? numerator denominator = some code) :
    code < infinityCode := by
  unfold nearestCode? at nearest
  split at nearest
  · cases nearest
    decide
  · split at nearest
    · cases nearest
    · simp only at nearest
      split at nearest
      · next small =>
          cases nearest
          exact small
      · cases nearest

end Binary64
end Abacus
