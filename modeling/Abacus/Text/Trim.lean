/-
Trimming: white space is removed from both ends of a text and from nowhere else.
-/

import Abacus.Unicode.WhiteSpace

namespace Abacus.Text

def trimChars (chars : List Char) : List Char :=
  ((chars.dropWhile Unicode.isWhiteSpace).reverse.dropWhile Unicode.isWhiteSpace).reverse

def trim (text : String) : String :=
  String.ofList (trimChars text.toList)

/-! ### Nothing to trim -/

private theorem dropWhile_eq_self {chars : List Char}
    (first : ∀ character ∈ chars.head?, Unicode.isWhiteSpace character = false) :
    chars.dropWhile Unicode.isWhiteSpace = chars := by
  cases chars with
  | nil => rfl
  | cons character rest =>
      have stays := first character rfl
      exact List.dropWhile_cons_of_neg (by rw [stays]; exact Bool.false_ne_true)

theorem trim_eq_self {text : String}
    (first : ∀ character ∈ text.toList.head?, Unicode.isWhiteSpace character = false)
    (last : ∀ character ∈ text.toList.getLast?, Unicode.isWhiteSpace character = false) :
    trim text = text := by
  rw [← List.head?_reverse] at last
  rw [trim, trimChars, dropWhile_eq_self first, dropWhile_eq_self last, List.reverse_reverse,
    String.ofList_toList]

end Abacus.Text
