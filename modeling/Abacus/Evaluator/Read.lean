/-
Reading phrases: the value of a phrase is computed while its tokens are read.

Every token taken leaves less to read, and between two tokens the calls go from larger
phrases to smaller ones.  The calls carry the bound on what is left, and the equations at
the end state what `read` does without it.
-/

import Abacus.Grammar
import Abacus.Evaluator

namespace Abacus
namespace Evaluator

theorem size_after
    (evaluator after : Evaluator) (token : Token)
    (answered : evaluator.next = (.ok token, after)) :
    after.size + weight token ≤ evaluator.size := by
  obtain ⟨nothing, bound⟩ := next_of_token evaluator after token answered
  simp only [size, nothing, Nat.add_zero]
  exact bound

theorem size_le_of_taken {evaluator after last : Evaluator} {token : Token}
    (bound : after.size + weight token ≤ evaluator.size) (left : last.size ≤ after.size) :
    last.size ≤ evaluator.size := by
  omega

theorem weight_of_kind
    (token : Token) (kind : Kind) (other : kind ≠ .inputEnd) (is : token.kind = kind) :
    weight token = 1 := by
  unfold weight
  rw [is]
  exact if_neg other

theorem weight_of_joint
    (token : Token) (level : Level) (operator : Operator)
    (joins : token.kind.joint? level = some operator) : weight token = 1 :=
  weight_of_kind token (.operator operator) Kind.noConfusion
    ((Kind.joint?_eq_some_iff level token.kind operator).mp joins).1

/-! ### Reading with the bound -/

/-- A value or a fault, and an evaluator with no more left to read than `before`. -/
abbrev Reading (before : Evaluator) : Type :=
  { answer : Except Fault Binary64 × Evaluator // answer.2.size ≤ before.size }

@[inline] def Reading.widen {before : Evaluator} (reading : Reading before) (earlier : Evaluator)
    (bound : before.size ≤ earlier.size) : Reading earlier :=
  ⟨reading.val, Nat.le_trans reading.property bound⟩

def rank : Nonterminal → Nat
  | .atom => 1
  | .primary => 2
  | .chain .product => 3
  | .chain .sum => 4

theorem rank_part_lt (level : Level) : rank level.part < rank (.chain level) := by
  cases level <;> decide

theorem rank_le (nonterminal : Nonterminal) : rank nonterminal ≤ 4 := by
  cases nonterminal with
  | atom => decide
  | primary => decide
  | chain level => cases level <;> decide

mutual

/-- That no more is left to read than before is what lets a chain go on. -/
def readBounded (nonterminal : Nonterminal) (evaluator : Evaluator) : Reading evaluator :=
  match nonterminal with
  | .atom =>
      match answered : evaluator.next with
      | (.error fault, after) =>
          ⟨(.error fault, after), Nat.le_of_eq (next_of_fault _ _ _ answered)⟩
      | (.ok token, after) =>
          have bound := size_after _ _ _ answered
          if _opens : token.kind = .openParen then
            match readBounded .expression after with
            | ⟨(.error fault, inside), left⟩ =>
                ⟨(.error fault, inside), size_le_of_taken bound left⟩
            | ⟨(.ok value, inside), left⟩ =>
                match closed : inside.next with
                | (.error fault, last) =>
                    have same := next_of_fault _ _ _ closed
                    ⟨(.error fault, last),
                      size_le_of_taken bound (Nat.le_trans (Nat.le_of_eq same) left)⟩
                | (.ok closing, last) =>
                    have less := size_le_of_taken (size_after _ _ _ closed) (Nat.le_refl _)
                    ⟨(if closing.kind = .closeParen then .ok value
                        else .error (.unclosed closing.offset), last),
                      size_le_of_taken bound (Nat.le_trans less left)⟩
          else
            have left := size_le_of_taken bound (Nat.le_refl _)
            match token.kind with
            | .number value => ⟨(.ok value, after), left⟩
            | _ => ⟨(.error (.misplaced token), after), left⟩
  | .primary =>
      match answered : evaluator.next with
      | (.error fault, after) =>
          ⟨(.error fault, after), Nat.le_of_eq (next_of_fault _ _ _ answered)⟩
      | (.ok token, after) =>
          have bound := size_after _ _ _ answered
          if _negates : token.kind = .operator .minus then
            match readBounded .atom after with
            | ⟨(.error fault, last), left⟩ =>
                ⟨(.error fault, last), size_le_of_taken bound left⟩
            | ⟨(.ok value, last), left⟩ =>
                ⟨(.ok (-value), last), size_le_of_taken bound left⟩
          else
            (readBounded .atom (after.putBack token)).widen evaluator
              (next_of_token _ _ _ answered).2
  | .chain level =>
      match readBounded level.part evaluator with
      | ⟨(.error fault, after), left⟩ => ⟨(.error fault, after), left⟩
      | ⟨(.ok value, after), left⟩ => (continueBounded level value after).widen evaluator left
termination_by 5 * evaluator.size + rank nonterminal
decreasing_by
  · have taken := weight_of_kind token .openParen Kind.noConfusion _opens
    simp only [rank]; omega
  · have taken := weight_of_kind token (.operator .minus) Kind.noConfusion _negates
    simp only [rank]; omega
  · have bound := (next_of_token _ _ _ answered).2
    rw [← size_putBack] at bound
    simp only [rank]; omega
  · have smaller := rank_part_lt level
    omega
  · simp only at left
    have positive : 0 < rank (.chain level) :=
      Nat.lt_of_le_of_lt (Nat.zero_le _) (rank_part_lt level)
    omega

def continueBounded (level : Level) (value : Binary64) (evaluator : Evaluator) :
    Reading evaluator :=
  match answered : evaluator.next with
  | (.error fault, after) =>
      ⟨(.error fault, after), Nat.le_of_eq (next_of_fault _ _ _ answered)⟩
  | (.ok token, after) =>
      have bound := size_after _ _ _ answered
      match _joins : token.kind.joint? level with
      | none => ⟨(.ok value, after.putBack token), (next_of_token _ _ _ answered).2⟩
      | some operator =>
          match readBounded level.part after with
          | ⟨(.error fault, last), left⟩ =>
              ⟨(.error fault, last), size_le_of_taken bound left⟩
          | ⟨(.ok right, last), left⟩ =>
              (continueBounded level (operator.apply value right) last).widen evaluator
                (size_le_of_taken bound left)
termination_by 5 * evaluator.size
decreasing_by
  · have taken := weight_of_joint token level operator _joins
    have small := rank_le level.part
    omega
  · have taken := weight_of_joint token level operator _joins
    simp only at left
    omega

end

/-! ### Reading -/

def read (evaluator : Evaluator) (nonterminal : Nonterminal) :
    Except Fault Binary64 × Evaluator :=
  (readBounded nonterminal evaluator).val

/-- The value of the chain so far is `value`. -/
def continueChain (evaluator : Evaluator) (level : Level) (value : Binary64) :
    Except Fault Binary64 × Evaluator :=
  (continueBounded level value evaluator).val

theorem size_read_le (evaluator : Evaluator) (nonterminal : Nonterminal) :
    (evaluator.read nonterminal).2.size ≤ evaluator.size :=
  (readBounded nonterminal evaluator).property

/-! ### What reading does -/

theorem read_atom (evaluator : Evaluator) :
    evaluator.read .atom =
      match evaluator.next with
      | (.error fault, after) => (.error fault, after)
      | (.ok token, after) =>
          match token.kind with
          | .number value => (.ok value, after)
          | .openParen =>
              match after.read .expression with
              | (.error fault, inside) => (.error fault, inside)
              | (.ok value, inside) =>
                  match inside.next with
                  | (.error fault, last) => (.error fault, last)
                  | (.ok closing, last) =>
                      (if closing.kind = .closeParen then .ok value
                        else .error (.unclosed closing.offset), last)
          | _ => (.error (.misplaced token), after) := by
  unfold read
  rw [readBounded]
  split
  · next answered => simp only [answered]
  · next token after answered =>
      simp only [answered]
      split
      · next opens =>
          simp only [opens]
          split
          · next found => simp only [found]
          · next found =>
              simp only [found]
              split
              · next closed => simp only [closed]
              · next closed => simp only [closed]
      · next other =>
          obtain ⟨kind, is⟩ : ∃ kind, token.kind = kind := ⟨_, rfl⟩
          cases kind with
          | number value => simp only [is]
          | openParen => exact absurd is other
          | operator operator => simp only [is]
          | closeParen => simp only [is]
          | lineEnd => simp only [is]
          | inputEnd => simp only [is]

theorem read_primary (evaluator : Evaluator) :
    evaluator.read .primary =
      match evaluator.next with
      | (.error fault, after) => (.error fault, after)
      | (.ok token, after) =>
          if token.kind = .operator .minus then
            match after.read .atom with
            | (.error fault, last) => (.error fault, last)
            | (.ok value, last) => (.ok (-value), last)
          else (after.putBack token).read .atom := by
  unfold read
  rw [readBounded]
  split
  · next answered => simp only [answered]
  · next answered =>
      simp only [answered]
      split
      · split
        · next found => simp only [found]
        · next found => simp only [found]
      · rfl

theorem read_chain (evaluator : Evaluator) (level : Level) :
    evaluator.read (.chain level) =
      match evaluator.read level.part with
      | (.error fault, after) => (.error fault, after)
      | (.ok value, after) => after.continueChain level value := by
  unfold read continueChain
  rw [readBounded]
  split
  · next found => simp only [found]
  · next found =>
      simp only [found]
      rfl

/-- A chain goes on while operators of its level follow, and puts back what does not. -/
theorem continueChain_eq (evaluator : Evaluator) (level : Level) (value : Binary64) :
    evaluator.continueChain level value =
      match evaluator.next with
      | (.error fault, after) => (.error fault, after)
      | (.ok token, after) =>
          match token.kind.joint? level with
          | none => (.ok value, after.putBack token)
          | some operator =>
              match after.read level.part with
              | (.error fault, last) => (.error fault, last)
              | (.ok right, last) =>
                  last.continueChain level (operator.apply value right) := by
  unfold read continueChain
  rw [continueBounded]
  split
  · next answered => simp only [answered]
  · next answered =>
      simp only [answered]
      split
      · next joins => simp only [joins]
      · next joins =>
          simp only [joins]
          split
          · next found => simp only [found]
          · next found =>
              simp only [found]
              rfl

end Evaluator
end Abacus
