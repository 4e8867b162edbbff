/-
A line feed ends a line.

The line feed is a token where the text in front of it alone has the end of the input, and
the automaton does not go on behind either of them.
-/

import Abacus.Proofs.Embedding
import Abacus.Proofs.Relabelling

namespace Abacus

/-! ### The end of the line for the end of the input -/

def Token.atLineFeed (token : Token) : Token :=
  if token.kind = .inputEnd then { token with kind := .lineEnd, text := "" } else token

def Fault.atLineFeed : Fault → Fault
  | unexpected found position =>
      unexpected (if found = "end of input" then "end of line" else found) position
  | lexical detail position => lexical detail position
  | unclosed position => unclosed position

theorem Token.atLineFeed_of_ne {token : Token} (other : token.kind ≠ .inputEnd) :
    token.atLineFeed = token :=
  if_neg other

/-- No token in quotation marks is named like a terminator. -/
theorem Token.describe_eq_iff (token : Token) :
    (token.describe = "end of input" ↔ token.kind = .inputEnd) ∧
      (token.describe = "end of line" ↔ token.kind = .lineEnd) := by
  have quoted (name : String) (bare : name.toList.head? ≠ "'".toList.head?) :
      "'" ++ token.text ++ "'" ≠ name := by
    rintro rfl
    simp at bare
  have notInput := quoted "end of input" (by decide)
  have notLine := quoted "end of line" (by decide)
  unfold describe
  cases token.kind with
  | inputEnd => simp
  | lineEnd => simp
  | number value => simp [notInput, notLine]
  | operator operator => simp [notInput, notLine]
  | openParen => simp [notInput, notLine]
  | closeParen => simp [notInput, notLine]

theorem relabels_atLineFeed : Relabels Token.atLineFeed Fault.atLineFeed where
  kind token goesOn := by
    have other : token.kind ≠ .inputEnd := by
      intro isEnd
      rw [(Token.isTerminator_iff token).mpr (Or.inr isEnd)] at goesOn
      cases goesOn
    rw [Token.atLineFeed_of_ne other]
  ends token := by
    unfold Token.atLineFeed
    split
    · next isEnd =>
        rw [(Token.isTerminator_iff token).mpr (Or.inr isEnd)]
        rfl
    · rfl
  misplaced token := by
    unfold Token.atLineFeed
    split
    · next isEnd =>
        rw [Fault.misplaced, Fault.misplaced, token.describe_eq_iff.1.mpr isEnd]
        rfl
    · next other =>
        have named : token.describe ≠ "end of input" := mt token.describe_eq_iff.1.mp other
        rw [Fault.misplaced, Fault.atLineFeed, if_neg named]
  unclosed token := by
    unfold Token.atLineFeed
    split <;> rfl

/-! ### A text in front of a line feed -/

theorem separates_lineFeed : Separates '\n' :=
  ⟨rfl, by decide⟩

theorem exists_answers_lineFeed (front back : String) :
    ∃ more, (Scanner.ofLine (front ++ "\n" ++ back)).answers =
      (Scanner.ofLine front).answers.map (relabelled Token.atLineFeed Fault.atLineFeed) ++ more := by
  obtain ⟨tokens, last, piecesFront⟩ := exists_pieces 0 front.toList
  have decomposed := (decomposition_iff_pieces _ _ _).mpr piecesFront
  have chars : (front ++ "\n" ++ back).toList = front.toList ++ '\n' :: back.toList := by
    simp
  have answers : (Scanner.ofLine front).answers = tokens.map .ok ++ [last] :=
    Scanner.answers_of_pieces piecesFront
  have kept : (tokens.map Except.ok).map (relabelled Token.atLineFeed Fault.atLineFeed) =
      tokens.map Except.ok := by
    rw [List.map_map]
    apply List.map_congr_left
    intro token member
    have spelled := decomposed.covers.spelled token member
    exact congrArg Except.ok (Token.atLineFeed_of_ne spelled.ne_inputEnd)
  rw [Scanner.ofLine, chars, answers, List.map_append, kept]
  cases last with
  | error fault =>
      obtain ⟨before, behind, _, refused⟩ := decomposed.ends
      have same : fault.atLineFeed = fault := by
        cases refused <;> rfl
      refine ⟨[], ?_⟩
      rw [Scanner.answers_of_pieces (piecesFront.append_of_fault separates_lineFeed back.toList)]
      simp [relabelled, same]
  | ok token =>
      obtain ⟨others, ending, piecesBack⟩ :=
        exists_pieces (0 + encodedSize front.toList + '\n'.utf8Size) back.toList
      have feed := Pieces.single (rfl : Kind.lineEnd.character? = some '\n')
        (fun _ => Kind.noConfusion) piecesBack
      have isEnd : token = .inputEnd (encodedSize front.toList) := decomposed.ends
      refine ⟨others.map .ok ++ [ending], ?_⟩
      rw [Scanner.answers_of_pieces (piecesFront.append separates_lineFeed feed), isEnd]
      simp [relabelled, Token.atLineFeed, Token.inputEnd]

theorem evaluate_append_lineFeed (front back : String) :
    evaluate (front ++ "\n" ++ back) = (evaluate front).mapError Fault.atLineFeed := by
  obtain ⟨more, answers⟩ := exists_answers_lineFeed front back
  exact relabels_atLineFeed.evaluate_eq (List.append_nil _).symm answers
    (Automaton.run_evaluate front)

/-- Nothing behind a line feed counts, and the line feed ends the line. -/
theorem evaluate_up_to_lineFeed (front back : String) :
    evaluate (front ++ "\n" ++ back) = evaluate (front ++ "\n") ∧
      evaluate (front ++ "\n") = (evaluate front).mapError Fault.atLineFeed := by
  have nothing := evaluate_append_lineFeed front ""
  rw [String.append_empty] at nothing
  exact ⟨(evaluate_append_lineFeed front back).trans nothing.symm, nothing⟩

example : evaluate "1 +\n2" = .error (.unexpected "end of line" 3) := by
  decide +kernel

end Abacus
