/-
Scanning: one token after the other is taken from the front of a line.

At the end of the line the scanner keeps answering with the end of the input.  Where no
token can be taken it stays in front of the blanks that it skipped, so it answers with the
same fault again.
-/

import Abacus.Numeral
import Abacus.Fault

namespace Abacus

structure Scanner where
  rest : List Char
  position : Nat
deriving DecidableEq

def encodedSize (chars : List Char) : Nat :=
  chars.foldr (fun character size => character.utf8Size + size) 0

def isBlank (character : Char) : Bool :=
  character ∈ [' ', '\t', '\r', '\x0b', '\x0c']

namespace Scanner

def ofLine (line : String) : Scanner :=
  ⟨line.toList, 0⟩

def empty : Scanner :=
  ofLine ""

def behind (scanner : Scanner) (taken rest : List Char) : Scanner :=
  ⟨rest, scanner.position + encodedSize taken⟩

def skipBlanks (scanner : Scanner) : Scanner :=
  scanner.behind (scanner.rest.takeWhile isBlank) (scanner.rest.dropWhile isBlank)

def takeNumeral (scanner : Scanner) (numeral : Numeral) (rest : List Char) :
    Except Fault (Token × Scanner) :=
  let text := String.ofList numeral.chars
  match numeral.value? with
  | some value =>
      .ok (Token.number text value scanner.position, scanner.behind numeral.chars rest)
  | none => .error (Fault.outOfRange text scanner.position)

def takeSingle (scanner : Scanner) (first : Char) (rest : List Char) :
    Except Fault (Token × Scanner) :=
  match Token.ofChar? first scanner.position with
  | some token => .ok (token, scanner.behind [first] rest)
  | none => .error (Fault.strayCharacter first scanner.position)

def take (scanner : Scanner) : Except Fault (Token × Scanner) :=
  match scanner.rest with
  | [] => .ok (Token.inputEnd scanner.position, scanner)
  | first :: rest =>
      if first.isDigit then
        let reading := Numeral.read scanner.rest
        scanner.takeNumeral reading.1 reading.2
      else scanner.takeSingle first rest

def next (scanner : Scanner) : Except Fault Token × Scanner :=
  match scanner.skipBlanks.take with
  | .ok (token, after) => (.ok token, after)
  | .error fault => (.error fault, scanner)

/-! ### Progress -/

private theorem length_skipBlanks_le (scanner : Scanner) :
    scanner.skipBlanks.rest.length ≤ scanner.rest.length :=
  (List.dropWhile_sublist isBlank).length_le

private theorem numeral_rest_length_lt
    (first : Char) (rest : List Char) (digit : first.isDigit = true) :
    (Numeral.read (first :: rest)).2.length < (first :: rest).length := by
  have parts := congrArg List.length (Numeral.read_chars_append (first :: rest))
  have notEmpty : 0 < (Numeral.read (first :: rest)).1.chars.length := by
    unfold Numeral.read
    simp only [List.takeWhile_cons_of_pos digit]
    split
    · simp only [Numeral.chars, List.cons_append, List.length_cons]
      omega
    · simp only [Numeral.chars, List.length_cons]
      omega
  rw [List.length_append] at parts
  omega

private theorem kind_ne_inputEnd_of_ofChar?
    (character : Char) (offset : Nat) (token : Token)
    (single : Token.ofChar? character offset = some token) : token.kind ≠ .inputEnd := by
  unfold Token.ofChar? Kind.ofChar? at single
  split at single <;> cases single <;> exact Kind.noConfusion

private theorem takeNumeral_eq_ok
    (scanner after : Scanner) (numeral : Numeral) (rest : List Char) (token : Token)
    (taken : scanner.takeNumeral numeral rest = .ok (token, after)) :
    token.kind ≠ .inputEnd ∧ after.rest = rest := by
  unfold takeNumeral at taken
  simp only at taken
  split at taken
  · cases taken
    exact ⟨Kind.noConfusion, rfl⟩
  · cases taken

private theorem takeSingle_eq_ok
    (scanner after : Scanner) (first : Char) (rest : List Char) (token : Token)
    (taken : scanner.takeSingle first rest = .ok (token, after)) :
    token.kind ≠ .inputEnd ∧ after.rest = rest := by
  unfold takeSingle at taken
  split at taken
  · next single =>
      cases taken
      exact ⟨kind_ne_inputEnd_of_ofChar? first _ _ single, rfl⟩
  · cases taken

theorem take_length
    (scanner after : Scanner) (token : Token)
    (taken : scanner.take = .ok (token, after)) :
    (token.kind = .inputEnd ∧ scanner.rest = [] ∧ after = scanner) ∨
      (token.kind ≠ .inputEnd ∧ after.rest.length < scanner.rest.length) := by
  unfold take at taken
  split at taken
  · next ended =>
      cases taken
      exact Or.inl ⟨rfl, ended, rfl⟩
  · next first rest started =>
      right
      split at taken
      · next digit =>
          obtain ⟨other, left⟩ := takeNumeral_eq_ok _ _ _ _ _ taken
          rw [left, started]
          exact ⟨other, numeral_rest_length_lt first rest digit⟩
      · obtain ⟨other, left⟩ := takeSingle_eq_ok _ _ _ _ _ taken
        rw [left, started]
        exact ⟨other, Nat.lt_succ_self _⟩

/-- This is what makes reading an expression end. -/
theorem next_length
    (scanner after : Scanner) (token : Token)
    (answered : scanner.next = (.ok token, after)) :
    (token.kind = .inputEnd ∧ after.rest = []) ∨
      (token.kind ≠ .inputEnd ∧ after.rest.length < scanner.rest.length) := by
  unfold next at answered
  have shorter := length_skipBlanks_le scanner
  split at answered
  · next taken =>
      cases answered
      rcases take_length _ _ _ taken with ⟨ended, nothing, same⟩ | ⟨other, less⟩
      · exact Or.inl ⟨ended, same ▸ nothing⟩
      · exact Or.inr ⟨other, by omega⟩
  · cases answered

theorem next_of_fault
    (scanner after : Scanner) (fault : Fault)
    (answered : scanner.next = (.error fault, after)) : after = scanner := by
  unfold next at answered
  split at answered
  · cases answered
  · cases answered
    rfl

end Scanner
end Abacus
