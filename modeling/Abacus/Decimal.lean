/-
Decimal fractions, through which every numeral and every finite value is exact.
-/

import Abacus.Binary64

namespace Abacus

/-- The number `coefficient / 10 ^ places`. -/
structure Decimal where
  coefficient : Nat
  places : Nat
deriving DecidableEq

namespace Decimal

def code? (decimal : Decimal) : Option Nat :=
  Binary64.nearestCode? decimal.coefficient (Nat.pow 10 decimal.places)

/-- Exact: as ten is twice five, `2 ^ -1074` has 1074 decimal places. -/
def ofCode (code : Nat) : Decimal :=
  { coefficient := Binary64.units code * Nat.pow 5 Binary64.unitPlaces
    places := Binary64.unitPlaces }

end Decimal
end Abacus
