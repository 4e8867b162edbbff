/-
Faults are found as early as they can be.

The tokens that the automaton has walked over begin a sentence, because what it has
reached can be completed.  They begin none with the token at which it stops, because
the automaton accepts every sentence.
-/

import Abacus.Proofs.Sentence

namespace Abacus

/-! ### Beginnings of sentences -/

def IsSentence (tokens : List Token) : Prop :=
  ∃ expression value terminator, tokens = expression ++ [terminator] ∧
    Derives .expression expression value ∧ terminator.isTerminator = true

def BeginsSentence (tokens : List Token) : Prop :=
  ∃ more, IsSentence (tokens ++ more)

/-- The fault shows at the first answer with which no sentence goes on. -/
def Fault.EarliestIn (answers : List (Except Fault Token)) : Fault → Prop
  | .lexical detail position =>
      ∃ (tokens : List Token) (rest : List (Except Fault Token)),
        answers = tokens.map .ok ++ .error (.lexical detail position) :: rest ∧
        BeginsSentence tokens ∧ ∀ token ∈ tokens, token.isTerminator = false
  | fault =>
      ∃ (tokens : List Token) (token : Token) (rest : List (Except Fault Token)),
        answers = tokens.map .ok ++ .ok token :: rest ∧ fault.position = token.offset ∧
        BeginsSentence tokens ∧ ¬ BeginsSentence (tokens ++ [token])

namespace Automaton

theorem beginsSentence_of_walk {last : Configuration} {tokens : List Token}
    (walked : walk start tokens = some last) : BeginsSentence tokens := by
  obtain ⟨more, value, derived⟩ := (reached_of_walk walked).exists_completion
  refine ⟨more ++ [Token.inputEnd 0], tokens ++ more, value, Token.inputEnd 0, ?_, derived, rfl⟩
  rw [List.append_assoc]

theorem run_of_isSentence {tokens : List Token} (sentence : IsSentence tokens) :
    run start (tokens.map .ok) = some (.ok ()) := by
  obtain ⟨expression, value, terminator, rfl, derived, ends⟩ := sentence
  rw [List.map_append]
  exact run_sentence derived ends []

/-- Whatever followed the token, the automaton would stop at it, but it accepts every
sentence. -/
theorem not_beginsSentence_of_stops {last : Configuration} {tokens : List Token}
    {token : Token} {fault : Fault} (walked : walk start tokens = some last)
    (stops : moveToken last token = .stops (.error fault)) :
    ¬ BeginsSentence (tokens ++ [token]) := by
  rintro ⟨more, sentence⟩
  have accepted := run_of_isSentence sentence
  have stopsAt : move last (.ok token) = .stops (.error fault) := stops
  rw [List.append_assoc, List.map_append, run_append_of_walk walked] at accepted
  have stopped := (run_cons_of_stops stopsAt (more.map .ok)).symm.trans accepted
  cases stopped

private theorem misplaced_of_moveOperand {depth : Nat} {token : Token} {fault : Fault}
    (stops : moveOperand depth token = .stops (.error fault)) : fault = .misplaced token := by
  unfold moveOperand at stops
  split at stops
  · cases stops
  · cases stops
  · cases stops
    rfl

private theorem misplaced_of_moveOutside {token : Token} {fault : Fault}
    (stops : moveOutside token = .stops (.error fault)) : fault = .misplaced token := by
  unfold moveOutside at stops
  split at stops
  · cases stops
  · cases stops
  · cases stops
  · cases stops
    rfl

private theorem unclosed_of_moveInside {depth : Nat} {token : Token} {fault : Fault}
    (stops : moveInside depth token = .stops (.error fault)) :
    fault = .unclosed token.offset := by
  unfold moveInside at stops
  split at stops
  · cases stops
  · cases stops
  · cases stops
    rfl

theorem blamedOn_of_stops {configuration : Configuration} {token : Token} {fault : Fault}
    (stops : moveToken configuration token = .stops (.error fault)) :
    fault.BlamedOn (.ok token) := by
  obtain ⟨mode, depth⟩ := configuration
  cases mode with
  | operand =>
      by_cases negates : token.kind = .operator .minus
      · rw [moveToken_minus negates] at stops
        cases stops
      · rw [moveToken_operand negates] at stops
        exact Or.inl (misplaced_of_moveOperand stops)
  | afterMinus => exact Or.inl (misplaced_of_moveOperand stops)
  | operator =>
      cases depth with
      | zero => exact Or.inl (misplaced_of_moveOutside stops)
      | succ depth => exact Or.inr (unclosed_of_moveInside stops)

end Automaton

/-! ### Whole lines -/

theorem Scanner.lexical_of_mem_answers {scanner : Scanner} {fault : Fault}
    (member : .error fault ∈ scanner.answers) :
    ∃ detail position, fault = .lexical detail position := by
  obtain ⟨tokens, last, finite, _, _, isLast⟩ := scanner.exists_answers_eq
  rw [finite, List.mem_append, List.mem_singleton] at member
  rcases member with inside | rfl
  · obtain ⟨token, _, isToken⟩ := List.mem_map.mp inside
    cases isToken
  · rcases isLast with ⟨offset, isEnd⟩ | ⟨detail, position, isFault⟩
    · cases isEnd
    · exact ⟨detail, position, Except.error.inj isFault⟩

theorem exists_walk_of_rejected {line : String} {fault : Fault}
    (rejected : evaluate line = .error fault) :
    ∃ tokens answer rest last,
      (Scanner.ofLine line).answers = tokens.map .ok ++ answer :: rest ∧
      Automaton.walk Automaton.start tokens = some last ∧
      Automaton.move last answer = .stops (.error fault) := by
  have stopped := Automaton.run_evaluate line
  rw [rejected] at stopped
  exact Automaton.exists_walk_of_run stopped

/-- The fault of a line is the earliest that there is. -/
theorem fault_earliest_of_evaluate (line : String) (fault : Fault)
    (rejected : evaluate line = .error fault) :
    fault.EarliestIn (Scanner.ofLine line).answers := by
  obtain ⟨tokens, answer, rest, last, split, walked, stops⟩ := exists_walk_of_rejected rejected
  have begins := Automaton.beginsSentence_of_walk walked
  cases answer with
  | error scanned =>
      cases stops
      have member : .error fault ∈ (Scanner.ofLine line).answers := by
        rw [split]
        exact List.mem_append_right _ List.mem_cons_self
      obtain ⟨detail, position, rfl⟩ := Scanner.lexical_of_mem_answers member
      exact ⟨tokens, rest, split, begins, Automaton.not_terminator_of_walk walked⟩
  | ok token =>
      have refused := Automaton.not_beginsSentence_of_stops walked stops
      rcases Automaton.blamedOn_of_stops stops with rfl | rfl
      · exact ⟨tokens, token, rest, split, rfl, begins, refused⟩
      · exact ⟨tokens, token, rest, split, rfl, begins, refused⟩

/-- The second number is out of place inside the parenthesis; the character behind it,
which no token starts with, is not what is reported. -/
theorem fault_earliest_of_hidden_character :
    evaluate "(1 2 $" = .error (.unclosed 3) ∧
      (Fault.unclosed 3).EarliestIn (Scanner.ofLine "(1 2 $").answers :=
  ⟨by decide +kernel, fault_earliest_of_evaluate "(1 2 $" (.unclosed 3) (by decide +kernel)⟩

end Abacus
