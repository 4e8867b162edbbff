/-
The Unicode property White_Space: the characters that are trimmed from a line.
-/

import Abacus.Unicode.Ranges

namespace Abacus.Unicode

def whiteSpaceRanges : List (Nat × Nat) :=
  [(0x0009, 0x000d), (0x0020, 0x0020), (0x0085, 0x0085), (0x00a0, 0x00a0), (0x1680, 0x1680),
   (0x2000, 0x200a), (0x2028, 0x2029), (0x202f, 0x202f), (0x205f, 0x205f), (0x3000, 0x3000)]

def isWhiteSpace (character : Char) : Bool :=
  inRanges whiteSpaceRanges character

/-- The five blanks and the line feed are white space. -/
theorem isWhiteSpace_of_mem_ascii (character : Char)
    (member : character ∈ [' ', '\t', '\n', '\r', '\x0b', '\x0c']) :
    isWhiteSpace character = true := by
  have all : [' ', '\t', '\n', '\r', '\x0b', '\x0c'].all isWhiteSpace = true := by decide
  exact List.all_eq_true.mp all character member

/-- No character that prints between the space and the delete character is white space. -/
theorem isWhiteSpace_eq_false_of_visible {character : Char} (lower : 0x20 < character.toNat)
    (upper : character.toNat < 0x7f) : isWhiteSpace character = false := by
  have outside : ∀ range ∈ whiteSpaceRanges, range.2 ≤ 0x20 ∨ 0x7f ≤ range.1 := by decide
  rw [Bool.eq_false_iff, Ne, isWhiteSpace, inRanges_eq_true_iff]
  rintro ⟨range, member, least, greatest⟩
  rcases outside range member with before | behind
  · omega
  · omega

end Abacus.Unicode
