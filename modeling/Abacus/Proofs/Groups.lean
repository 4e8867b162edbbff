/-
A group matters only through its value.

The automaton walks over any group as over a number, unless it has stopped in front of it.
Where it accepts, the tokens of both lines come from the same sentence, which has a number
in the place of the group.
-/

import Abacus.Proofs.EarliestFault
import Abacus.Proofs.Embedding
import Abacus.Proofs.Relabelling

namespace Abacus

/-! ### The answers around a group -/

private theorem toList_group (front inside back : String) :
    (front ++ "(" ++ inside ++ ")" ++ back).toList =
      front.toList ++ '(' :: (inside.toList ++ ')' :: back.toList) := by
  simp

/-- Behind the tokens the line has an atom with the value, and behind the atom the answers
of another text, which stands so many bytes further behind. -/
structure HasAtom (line : String) (before atom : List Token) (value : Binary64) (back : String)
    (bytes : Nat) : Prop where
  derived : Derives .atom atom value
  answers : (Scanner.ofLine line).answers =
    (before ++ atom).map .ok ++ (Scanner.ofLine back).answers.map (movedAnswer bytes)

theorem exists_hasAtom_of_group {front inside : String} {before : List Token} {token : Token}
    {value : Binary64} (piecesFront : Pieces 0 front.toList before (.ok token))
    (valued : evaluate inside = .ok value) (free : '\n' ∉ inside.toList) (back : String) :
    ∃ group, HasAtom (front ++ "(" ++ inside ++ ")" ++ back) before
      (.opening front.utf8ByteSize :: group) value back
      (front.utf8ByteSize + 2 + inside.utf8ByteSize) := by
  obtain ⟨within, ending, piecesInside, derived⟩ := exists_pieces_of_evaluate valued free
  obtain ⟨behind, last, piecesBack⟩ := exists_pieces 0 back.toList
  have pieces := pieces_of_group piecesFront piecesInside piecesBack
  simp only [encodedSize_toList] at pieces
  have derivedMoved := derived.expand
    (Expands.map fun token _ => token.kind_moved (front.utf8ByteSize + 1))
  have group := Derives.group (.opening front.utf8ByteSize)
    (.closing (front.utf8ByteSize + 1 + inside.utf8ByteSize)) _ value rfl rfl derivedMoved
  have answers : (Scanner.ofLine back).answers = behind.map .ok ++ [last] :=
    Scanner.answers_of_pieces piecesBack
  refine ⟨_, group, ?_⟩
  rw [Scanner.ofLine, toList_group, Scanner.answers_of_pieces pieces, answers]
  simp [movedAnswer]

theorem answers_of_refused {front : String} {before : List Token} {fault : Fault}
    (piecesFront : Pieces 0 front.toList before (.error fault)) (inside back : String) :
    (Scanner.ofLine (front ++ "(" ++ inside ++ ")" ++ back)).answers =
      before.map .ok ++ [.error fault] := by
  have pieces := piecesFront.append_of_fault separates_opening (inside.toList ++ ')' :: back.toList)
  rw [Scanner.ofLine, toList_group]
  exact Scanner.answers_of_pieces pieces

namespace Automaton

/-! ### Answers further behind -/

theorem relabels_moved (bytes : Nat) : Relabels (Token.moved bytes) (Fault.moved bytes) where
  kind token _ := token.kind_moved bytes
  ends _ := rfl
  misplaced _ := rfl
  unclosed _ := rfl

theorem run_moved (bytes : Nat) (configuration : Configuration)
    (answers : List (Except Fault Token)) :
    run configuration (answers.map (movedAnswer bytes)) =
      (run configuration answers).map (Except.mapError (Fault.moved bytes)) := by
  have same : movedAnswer bytes = relabelled (Token.moved bytes) (Fault.moved bytes) := by
    funext answer
    cases answer <;> rfl
  rw [same]
  exact run_relabelled (relabels_moved bytes) configuration answers

/-! ### An atom behind a walk -/

/-- Where a parenthesis can be opened any atom can stand, and the walk goes on behind it
at the same depth. -/
theorem exists_walk_atom {before : List Token} {opening : Token} {last : Configuration}
    (opens : opening.kind = .openParen) (walked : walk start (before ++ [opening]) = some last) :
    ∃ depth, ∀ atom value, Derives .atom atom value →
      walk start (before ++ atom) = some ⟨.operator, depth⟩ := by
  rw [walk_append] at walked
  obtain ⟨⟨mode, depth⟩, walkedBefore, walkedOpening⟩ := Option.bind_eq_some_iff.mp walked
  obtain ⟨next, goes, _⟩ := exists_goes_of_walk_cons walkedOpening
  refine ⟨depth, ?_⟩
  intro atom value derived
  rw [walk_append, walkedBefore, Option.bind_some]
  cases mode with
  | operand => exact (Derives.plain atom value derived).walked depth
  | afterMinus => exact derived.walked depth
  | operator =>
      rcases cases_of_goes_operator goes with ⟨operator, is, _⟩ | ⟨_, _, closes, _⟩
      · rw [opens] at is
        cases is
      · rw [opens] at closes
        cases closes

theorem exists_answer_of_run {shared : List (Except Fault Token)} {fault : Fault}
    (stopped : run start shared = some (.error fault)) :
    ∃ answer ∈ shared, answerPosition answer = fault.position := by
  obtain ⟨tokens, answer, rest, last, rfl, _, stops⟩ := exists_walk_of_run stopped
  refine ⟨answer, List.mem_append_right _ List.mem_cons_self, ?_⟩
  cases answer with
  | error found =>
      cases stops
      rfl
  | ok token =>
      rcases blamedOn_of_stops stops with rfl | rfl
      · rfl
      · rfl

end Automaton

/-! ### A line with an atom -/

section

open Automaton

/-- Whatever is behind the atom is met at the same depth, and a fault has moved with it. -/
theorem HasAtom.evaluate_of_fault {line back : String} {before atom : List Token}
    {value : Binary64} {bytes depth : Nat} {fault : Fault}
    (has : HasAtom line before atom value back bytes)
    (walked : walk start (before ++ atom) = some ⟨.operator, depth⟩)
    (stopped : run ⟨.operator, depth⟩ (Scanner.ofLine back).answers = some (.error fault)) :
    evaluate line = .error (fault.moved bytes) := by
  apply evaluate_eq_error_of_run
  rw [has.answers, run_append_of_walk walked, run_moved, stopped]
  rfl

theorem HasAtom.evaluate_of_sentence {line back : String} {before atom rear : List Token}
    {value result : Binary64} {bytes : Nat} {terminator : Token}
    {rest : List (Except Fault Token)} (has : HasAtom line before atom value back bytes)
    (split : (Scanner.ofLine back).answers = rear.map .ok ++ .ok terminator :: rest)
    (ends : terminator.isTerminator = true)
    (sentence : Derives .expression (before ++ (.number "" value 0 :: rear)) result) :
    evaluate line = .ok result := by
  have expands : Expands (before ++ (.number "" value 0 :: rear))
      (before.map id ++ (atom ++ rear.map (Token.moved bytes))) :=
    (Expands.map fun _ _ => rfl).append
      (Expands.operand _ value atom rear _ rfl has.derived
        (Expands.map fun token _ => token.kind_moved bytes))
  rw [List.map_id] at expands
  have whole : (Scanner.ofLine line).answers =
      (before ++ (atom ++ rear.map (Token.moved bytes))).map .ok ++
        .ok (terminator.moved bytes) :: rest.map (movedAnswer bytes) := by
    rw [has.answers, split]
    simp [movedAnswer]
  exact evaluate_eq_ok_of_sentence whole (sentence.expand expands) ends

/-- With a number for the atom, what is accepted is a sentence. -/
theorem exists_sentence_of_accepted {before : List Token} {depth : Nat} {number : Token}
    {answers : List (Except Fault Token)} {accepted : Unit}
    (walkedNumber : walk start (before ++ [number]) = some ⟨.operator, depth⟩)
    (stopped : run ⟨.operator, depth⟩ answers = some (.ok accepted)) :
    ∃ rear terminator rest result, answers = rear.map .ok ++ .ok terminator :: rest ∧
      terminator.isTerminator = true ∧
      Derives .expression (before ++ number :: rear) result := by
  obtain ⟨rear, answer, rest, last, split, walked, stops⟩ := exists_walk_of_run stopped
  cases answer with
  | error fault => cases stops
  | ok terminator =>
      obtain ⟨rfl, ends⟩ := eq_of_accepts stops
      have walkedAll : walk start (before ++ number :: rear) = some ⟨.operator, 0⟩ := by
        rw [List.append_cons, walk_append, walkedNumber]
        exact walked
      obtain ⟨result, sentence⟩ := exists_sentence_of_walk walkedAll
      exact ⟨rear, terminator, rest, result, split, ends, sentence⟩

end

/-! ### Lines that differ in a group -/

def Fault.SameReason : Fault → Fault → Prop
  | lexical detail _, lexical other _ => detail = other
  | unexpected found _, unexpected other _ => found = other
  | unclosed _, unclosed _ => True
  | _, _ => False

theorem Fault.sameReason_refl (fault : Fault) : fault.SameReason fault := by
  cases fault with
  | lexical detail position => rfl
  | unexpected found position => rfl
  | unclosed position => trivial

theorem Fault.sameReason_moved (fault : Fault) (bytes others : Nat) :
    (fault.moved bytes).SameReason (fault.moved others) := by
  cases fault with
  | lexical detail position => rfl
  | unexpected found position => rfl
  | unclosed position => trivial

theorem Fault.position_moved (fault : Fault) (bytes : Nat) :
    (fault.moved bytes).position = fault.position + bytes := by
  cases fault <;> rfl

/-- The same value, or faults with the same reason.  Up to the border they stand at the same
byte, and behind it as much further behind as the right text is longer than the left one. -/
inductive Alike (border left right : Nat) :
    Except Fault Binary64 → Except Fault Binary64 → Prop where
  | value (value : Binary64) : Alike border left right (.ok value) (.ok value)
  | inFront (fault other : Fault) (reason : fault.SameReason other)
      (stands : fault.position ≤ border) (place : other.position = fault.position) :
      Alike border left right (.error fault) (.error other)
  | behind (fault other : Fault) (reason : fault.SameReason other)
      (stands : border < fault.position)
      (place : other.position + left = fault.position + right) :
      Alike border left right (.error fault) (.error other)

section

open Automaton

private theorem alike_of_shared {left right : String} {border sizeLeft sizeRight : Nat}
    {shared moreLeft moreRight : List (Except Fault Token)} {outcome : Except Fault Unit}
    (answersLeft : (Scanner.ofLine left).answers = shared ++ moreLeft)
    (answersRight : (Scanner.ofLine right).answers = shared ++ moreRight)
    (stopped : run start shared = some outcome)
    (bounded : ∀ answer ∈ shared, answerPosition answer ≤ border) :
    Alike border sizeLeft sizeRight (evaluate left) (evaluate right) := by
  have same := evaluate_eq_of_shared answersLeft answersRight stopped
  cases found : evaluate left with
  | ok value =>
      rw [← same, found]
      exact Alike.value value
  | error fault =>
      have outcomeLeft := run_evaluate left
      rw [answersLeft, run_append_of_run stopped, found] at outcomeLeft
      cases outcomeLeft
      obtain ⟨answer, member, stands⟩ := exists_answer_of_run stopped
      rw [← same, found]
      exact Alike.inFront fault fault fault.sameReason_refl
        (by rw [← stands]; exact bounded answer member) rfl

private theorem alike_of_hasAtom {left right back : String} {border sizeLeft sizeRight : Nat}
    {before atomLeft atomRight : List Token} {value : Binary64} {depth : Nat}
    (hasLeft : HasAtom left before atomLeft value back (border + 2 + sizeLeft))
    (hasRight : HasAtom right before atomRight value back (border + 2 + sizeRight))
    (walks : ∀ atom value, Derives .atom atom value →
      walk start (before ++ atom) = some ⟨.operator, depth⟩) :
    Alike border sizeLeft sizeRight (evaluate left) (evaluate right) := by
  have walkedLeft := walks atomLeft value hasLeft.derived
  have walkedRight := walks atomRight value hasRight.derived
  cases stopped : run ⟨.operator, depth⟩ (Scanner.ofLine back).answers with
  | none =>
      have outcome := run_evaluate left
      rw [hasLeft.answers, run_append_of_walk walkedLeft, run_moved, stopped] at outcome
      cases outcome
  | some outcome =>
      cases outcome with
      | error fault =>
          rw [hasLeft.evaluate_of_fault walkedLeft stopped,
            hasRight.evaluate_of_fault walkedRight stopped]
          refine Alike.behind _ _ (fault.sameReason_moved _ _) ?_ ?_
          · rw [fault.position_moved]
            omega
          · rw [fault.position_moved, fault.position_moved]
            omega
      | ok accepted =>
          have walkedNumber := walks [.number "" value 0] value (Derives.number _ _ rfl)
          obtain ⟨rear, terminator, rest, result, split, ends, sentence⟩ :=
            exists_sentence_of_accepted walkedNumber stopped
          rw [hasLeft.evaluate_of_sentence split ends sentence,
            hasRight.evaluate_of_sentence split ends sentence]
          exact Alike.value result

/-- Groups with the same value can stand for one another in every line. -/
theorem evaluate_alike_of_group (front back left right : String) (value : Binary64)
    (freeLeft : '\n' ∉ left.toList) (freeRight : '\n' ∉ right.toList)
    (valuedLeft : evaluate left = .ok value) (valuedRight : evaluate right = .ok value) :
    Alike front.utf8ByteSize left.utf8ByteSize right.utf8ByteSize
      (evaluate (front ++ "(" ++ left ++ ")" ++ back))
      (evaluate (front ++ "(" ++ right ++ ")" ++ back)) := by
  obtain ⟨before, last, piecesFront⟩ := exists_pieces 0 front.toList
  obtain ⟨lastInside, inside⟩ := piecesFront.offset_le
  rw [encodedSize_toList] at lastInside inside
  have bounded (answer : Except Fault Token) (stands : answerPosition answer ≤ front.utf8ByteSize) :
      ∀ shared ∈ before.map .ok ++ [answer], answerPosition shared ≤ front.utf8ByteSize := by
    intro shared member
    rcases List.mem_append.mp member with isBefore | isLast
    · obtain ⟨token, among, rfl⟩ := List.mem_map.mp isBefore
      exact inside token among
    · rw [List.mem_singleton.mp isLast]
      exact stands
  cases last with
  | error fault =>
      have answersLeft := answers_of_refused piecesFront left back
      have answersRight := answers_of_refused piecesFront right back
      have stopped := run_evaluate (front ++ "(" ++ left ++ ")" ++ back)
      rw [answersLeft] at stopped
      rw [← List.append_nil (_ ++ [_])] at answersLeft answersRight
      exact alike_of_shared answersLeft answersRight stopped (bounded _ lastInside)
  | ok token =>
      obtain ⟨groupLeft, hasLeft⟩ := exists_hasAtom_of_group piecesFront valuedLeft freeLeft back
      obtain ⟨groupRight, hasRight⟩ :=
        exists_hasAtom_of_group piecesFront valuedRight freeRight back
      cases stopped : run start ((before ++ [Token.opening front.utf8ByteSize]).map .ok) with
      | some outcome =>
          -- the automaton does not come to what is inside the group
          have answersLeft := hasLeft.answers
          have answersRight := hasRight.answers
          rw [List.append_cons, List.map_append, List.append_assoc] at answersLeft answersRight
          refine alike_of_shared answersLeft answersRight stopped ?_
          rw [List.map_append]
          exact bounded _ (Nat.le_refl _)
      | none =>
          obtain ⟨last, walked⟩ := exists_walk_of_run_eq_none stopped
          obtain ⟨depth, walks⟩ := exists_walk_atom rfl walked
          exact alike_of_hasAtom hasLeft hasRight walks

/-- The parenthesis behind the group is one too many, and it moves with the group. -/
theorem evaluate_alike_of_wider_group :
    ('\n' ∉ "2".toList ∧ '\n' ∉ "(2.0)".toList ∧
      evaluate "2" = .ok ⟨0x4000000000000000⟩ ∧ evaluate "(2.0)" = .ok ⟨0x4000000000000000⟩) ∧
      Alike 2 1 5 (evaluate "3*(2))") (evaluate "3*((2.0)))") := by
  have freeLeft : '\n' ∉ "2".toList := by decide
  have freeRight : '\n' ∉ "(2.0)".toList := by decide
  have valuedLeft : evaluate "2" = .ok ⟨0x4000000000000000⟩ := by decide +kernel
  have valuedRight : evaluate "(2.0)" = .ok ⟨0x4000000000000000⟩ := by decide +kernel
  exact ⟨⟨freeLeft, freeRight, valuedLeft, valuedRight⟩,
    evaluate_alike_of_group "3*" ")" "2" "(2.0)" _ freeLeft freeRight valuedLeft valuedRight⟩

end

end Abacus
