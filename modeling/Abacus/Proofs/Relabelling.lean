/-
Lines with other tokens of the same kinds.

What becomes of a line depends on the kinds of its tokens, and only up to the answer at
which the automaton stops.  Either terminator can stand for the other one.
-/

import Abacus.Proofs.Language
import Abacus.Proofs.Substitution

namespace Abacus

/-- A token keeps its kind, or it ends a line as it did before; the fault that is found at
the other token is the one that replaces the fault found at the token. -/
structure Relabels (tokens : Token → Token) (faults : Fault → Fault) : Prop where
  kind : ∀ token, token.isTerminator = false → (tokens token).kind = token.kind
  ends : ∀ token, (tokens token).isTerminator = token.isTerminator
  misplaced : ∀ token, Fault.misplaced (tokens token) = faults (.misplaced token)
  unclosed : ∀ token, Fault.unclosed (tokens token).offset = faults (.unclosed token.offset)

def relabelled (tokens : Token → Token) (faults : Fault → Fault) :
    Except Fault Token → Except Fault Token
  | .ok token => .ok (tokens token)
  | .error fault => .error (faults fault)

namespace Automaton

/-! ### The same moves -/

def Move.relabelled (faults : Fault → Fault) : Move → Move
  | .goes next => .goes next
  | .stops outcome => .stops (outcome.mapError faults)

section

variable {tokens : Token → Token} {faults : Fault → Fault}

theorem moveToken_relabelled (relabels : Relabels tokens faults) (configuration : Configuration)
    (token : Token) :
    moveToken configuration (tokens token) = (moveToken configuration token).relabelled faults := by
  have misplaced := relabels.misplaced token
  have unclosed := relabels.unclosed token
  cases ends : token.isTerminator with
  | true =>
      rw [moveToken_of_terminator ((relabels.ends token).trans ends),
        moveToken_of_terminator ends, misplaced, unclosed]
      obtain ⟨mode, depth⟩ := configuration
      cases mode with
      | operand => rfl
      | afterMinus => rfl
      | operator => cases depth <;> rfl
  | false =>
      have same := relabels.kind token ends
      obtain ⟨mode, depth⟩ := configuration
      simp only [moveToken, moveOperand, moveOutside, moveInside, same, misplaced, unclosed]
      -- only the kind is left of the token, except in the faults
      generalize token.kind = kind
      cases mode with
      | operand =>
          cases kind with
          | operator operator => cases operator <;> rfl
          | _ => rfl
      | afterMinus => cases kind <;> rfl
      | operator => cases depth <;> cases kind <;> rfl

theorem run_relabelled (relabels : Relabels tokens faults) (configuration : Configuration)
    (answers : List (Except Fault Token)) :
    run configuration (answers.map (relabelled tokens faults)) =
      (run configuration answers).map (Except.mapError faults) := by
  induction answers generalizing configuration with
  | nil => rfl
  | cons answer rest ih =>
      have moved : move configuration (relabelled tokens faults answer) =
          (move configuration answer).relabelled faults := by
        cases answer with
        | error fault => rfl
        | ok token => exact moveToken_relabelled relabels configuration token
      simp only [List.map_cons, run, moved]
      cases move configuration answer with
      | goes next => exact ih next
      | stops outcome => rfl

end
end Automaton

/-! ### What an evaluation depends on -/

section

open Automaton

theorem evaluate_eq_error_of_run {line : String} {fault : Fault}
    (stopped : run start (Scanner.ofLine line).answers = some (.error fault)) :
    evaluate line = .error fault := by
  have outcome := run_evaluate line
  rw [stopped] at outcome
  cases found : evaluate line with
  | ok value =>
      rw [found] at outcome
      cases outcome
  | error other =>
      rw [found] at outcome
      cases outcome
      rfl

theorem evaluate_eq_ok_of_sentence {line : String} {sentence : List Token} {value : Binary64}
    {terminator : Token} {rest : List (Except Fault Token)}
    (split : (Scanner.ofLine line).answers = sentence.map .ok ++ .ok terminator :: rest)
    (derived : Derives .expression sentence value) (ends : terminator.isTerminator = true) :
    evaluate line = .ok value :=
  Evaluator.empty.readWhole_of_derives
    (Scanner.phrase_eq_of_answers_eq split derived.not_terminator ends) derived

/-- If the automaton stops at one of the answers of the left line, and the right line has
these answers relabelled, what is behind them makes no difference. -/
theorem Relabels.evaluate_eq {tokens : Token → Token} {faults : Fault → Fault}
    (relabels : Relabels tokens faults) {left right : String}
    {shared moreLeft moreRight : List (Except Fault Token)} {outcome : Except Fault Unit}
    (answersLeft : (Scanner.ofLine left).answers = shared ++ moreLeft)
    (answersRight : (Scanner.ofLine right).answers =
      shared.map (relabelled tokens faults) ++ moreRight)
    (stopped : run start shared = some outcome) :
    evaluate right = (evaluate left).mapError faults := by
  cases outcome with
  | error fault =>
      have stoppedLeft : run start (Scanner.ofLine left).answers = some (.error fault) := by
        rw [answersLeft]
        exact run_append_of_run stopped
      have stoppedRight : run start (Scanner.ofLine right).answers =
          some (.error (faults fault)) := by
        rw [answersRight]
        apply run_append_of_run
        rw [run_relabelled relabels, stopped]
        rfl
      rw [evaluate_eq_error_of_run stoppedLeft, evaluate_eq_error_of_run stoppedRight]
      rfl
  | ok accepted =>
      obtain ⟨sentence, answer, rest, last, rfl, walked, stops⟩ := exists_walk_of_run stopped
      cases answer with
      | error fault => cases stops
      | ok terminator =>
          obtain ⟨rfl, ends⟩ := eq_of_accepts stops
          obtain ⟨value, derived⟩ := exists_sentence_of_walk walked
          have alike (token : Token) (member : token ∈ sentence) :
              (tokens token).kind = token.kind :=
            relabels.kind token (not_terminator_of_walk walked token member)
          have derivedRight := derived.expand (Expands.map alike)
          have whole : (Scanner.ofLine right).answers = (sentence.map tokens).map .ok ++
              .ok (tokens terminator) :: (rest.map (relabelled tokens faults) ++ moreRight) := by
            rw [answersRight]
            simp [relabelled]
          rw [List.append_assoc] at answersLeft
          rw [evaluate_eq_ok_of_sentence answersLeft derived ends,
            evaluate_eq_ok_of_sentence whole derivedRight ((relabels.ends terminator).trans ends)]
          rfl

theorem evaluate_eq_of_shared {left right : String}
    {shared moreLeft moreRight : List (Except Fault Token)} {outcome : Except Fault Unit}
    (answersLeft : (Scanner.ofLine left).answers = shared ++ moreLeft)
    (answersRight : (Scanner.ofLine right).answers = shared ++ moreRight)
    (stopped : run start shared = some outcome) : evaluate left = evaluate right := by
  have same : relabelled id id = id := by
    funext answer
    cases answer <;> rfl
  have relabels : Relabels id id :=
    ⟨fun _ _ => rfl, fun _ => rfl, fun _ => rfl, fun _ => rfl⟩
  rw [← List.map_id shared, ← same] at answersRight
  rw [relabels.evaluate_eq answersLeft answersRight stopped]
  cases evaluate left <;> rfl

end
end Abacus
