/-
The evaluator: a scanner with at most one token put back.

A token is put back where it was read only to see that a phrase ends in front of it.  It is
given out again before anything new is scanned, and it is not noted again.
-/

import Abacus.Journal

namespace Abacus

structure Evaluator where
  scanner : Scanner
  pending : Option Token
  journal : Journal

namespace Evaluator

def empty : Evaluator :=
  { scanner := .empty
    pending := none
    journal := #[] }

def note (evaluator : Evaluator) (event : Event) : Evaluator :=
  { evaluator with journal := evaluator.journal.push event }

/-- What is left of the old line is forgotten. -/
def onLine (evaluator : Evaluator) (line : String) : Evaluator :=
  { evaluator with
    scanner := .ofLine line
    pending := none }

def next (evaluator : Evaluator) : Except Fault Token × Evaluator :=
  match evaluator.pending with
  | some token => (.ok token, { evaluator with pending := none })
  | none =>
      let answer := evaluator.journal.scan evaluator.scanner
      (answer.1,
        { evaluator with
          scanner := answer.2.1
          journal := answer.2.2 })

def putBack (evaluator : Evaluator) (token : Token) : Evaluator :=
  { evaluator with pending := some token }

/-! ### How much is left to read -/

/-- The end of the input can be given out for ever and counts nothing. -/
def weight (token : Token) : Nat :=
  if token.kind = .inputEnd then 0 else 1

/-- A bound on the number of tokens left before the end of the input. -/
def size (evaluator : Evaluator) : Nat :=
  evaluator.scanner.rest.length +
    match evaluator.pending with
    | some token => weight token
    | none => 0

theorem size_putBack (evaluator : Evaluator) (token : Token) :
    (evaluator.putBack token).size = evaluator.scanner.rest.length + weight token :=
  rfl

/-- What is left after a token, and the token itself, were left before. -/
theorem next_of_token
    (evaluator after : Evaluator) (token : Token)
    (answered : evaluator.next = (.ok token, after)) :
    after.pending = none ∧
      after.scanner.rest.length + weight token ≤ evaluator.size := by
  unfold next at answered
  split at answered
  · next held =>
      cases answered
      refine ⟨rfl, ?_⟩
      simp only [size, held, Nat.le_refl]
  · next nothing =>
      simp only [Journal.scan, Prod.mk.injEq] at answered
      obtain ⟨found, afterwards⟩ := answered
      subst afterwards
      refine ⟨nothing, ?_⟩
      have shorter := Scanner.next_length evaluator.scanner evaluator.scanner.next.2 token
        (by rw [← found])
      simp only [size, weight, nothing, Nat.add_zero]
      rcases shorter with ⟨ended, nothingLeft⟩ | ⟨other, less⟩
      · simp only [ended, nothingLeft, if_true, List.length_nil]
        exact Nat.zero_le _
      · simp only [other, if_false]
        omega

theorem next_of_fault
    (evaluator after : Evaluator) (fault : Fault)
    (answered : evaluator.next = (.error fault, after)) :
    after.size = evaluator.size := by
  unfold next at answered
  split at answered
  · cases answered
  · next nothing =>
      simp only [Journal.scan, Prod.mk.injEq] at answered
      obtain ⟨found, afterwards⟩ := answered
      subst afterwards
      have same := Scanner.next_of_fault evaluator.scanner evaluator.scanner.next.2 fault
        (by rw [← found])
      simp only [size, nothing, same]

end Evaluator
end Abacus
