/-
Sets of characters given as ranges of code points, both ends included.
-/

namespace Abacus.Unicode

def inRanges (ranges : List (Nat × Nat)) (character : Char) : Bool :=
  ranges.any fun range => range.1 ≤ character.toNat && character.toNat ≤ range.2

theorem inRanges_eq_true_iff (ranges : List (Nat × Nat)) (character : Char) :
    inRanges ranges character = true ↔
      ∃ range ∈ ranges, range.1 ≤ character.toNat ∧ character.toNat ≤ range.2 := by
  simp only [inRanges, List.any_eq_true, Bool.and_eq_true, decide_eq_true_eq]

end Abacus.Unicode
