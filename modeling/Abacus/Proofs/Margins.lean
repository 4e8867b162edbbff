/-
Lines with margins.

A session takes the white space off a line, and a line that is evaluated as it stands keeps
its blanks.  The answers of the text alone are those of the line, trimmed: all bytes are
counted from the start of the text, and what ends the line is the end of the input.
-/

import Abacus.Proofs.LineFeed
import Abacus.Proofs.PrintedValues

namespace Abacus

/-! ### Bytes without the margin -/

/-- Where a text stands in a line: the bytes in front of it, its own, and the byte of the
line at which it is ended. -/
structure Margins where
  front : Nat
  core : Nat
  finish : Nat

namespace Margins

/-- The blanks behind a text belong to its margin as far as they go. -/
def around (front core back : List Char) : Margins where
  front := encodedSize front
  core := encodedSize core
  finish := encodedSize front + encodedSize core + encodedSize (back.takeWhile isBlank)

/-- A byte of the line as a byte of the text; where the line ends, the text does. -/
def byte (margins : Margins) (position : Nat) : Nat :=
  if position = margins.finish then margins.core else position - margins.front

theorem byte_add {margins : Margins} {position : Nat} (inside : position < margins.core)
    (behind : margins.front + margins.core ≤ margins.finish) :
    margins.byte (position + margins.front) = position := by
  unfold byte
  rw [if_neg (by omega)]
  omega

theorem byte_finish (margins : Margins) : margins.byte margins.finish = margins.core :=
  if_pos rfl

end Margins

/-- The fault of the text alone, given that of the line.  A fault that points at what ends
the line points behind the text, and it names the end of the input. -/
def Fault.trimmed (margins : Margins) : Fault → Fault
  | lexical detail position => lexical detail (margins.byte position)
  | unexpected found position =>
      unexpected
        (if position = margins.finish ∧ found = "end of line" then "end of input" else found)
        (margins.byte position)
  | unclosed position => unclosed (margins.byte position)

def Token.trimmed (margins : Margins) (token : Token) : Token :=
  if token.offset = margins.finish ∧ token.kind = .lineEnd then .inputEnd margins.core
  else { token with offset := margins.byte token.offset }

theorem relabels_trimmed (margins : Margins) :
    Relabels (Token.trimmed margins) (Fault.trimmed margins) where
  kind token goesOn := by
    have other : token.kind ≠ .lineEnd := by
      intro isEnd
      rw [(Token.isTerminator_iff token).mpr (Or.inl isEnd)] at goesOn
      cases goesOn
    rw [Token.trimmed, if_neg (fun ends => other ends.2)]
  ends token := by
    unfold Token.trimmed
    split
    · next ends =>
        rw [(Token.isTerminator_iff token).mpr (Or.inl ends.2)]
        rfl
    · rfl
  misplaced token := by
    unfold Token.trimmed
    split
    · next ends =>
        rw [Fault.misplaced, Fault.misplaced, token.describe_eq_iff.2.mpr ends.2,
          ends.1, Fault.trimmed, if_pos ⟨rfl, rfl⟩, margins.byte_finish]
        rfl
    · next stays =>
        have named : ¬ (token.offset = margins.finish ∧ token.describe = "end of line") := by
          rw [token.describe_eq_iff.2]
          exact stays
        rw [Fault.misplaced, Fault.misplaced, Fault.trimmed, if_neg named]
        rfl
  unclosed token := by
    unfold Token.trimmed
    split
    · next ends =>
        rw [Fault.trimmed, ends.1, margins.byte_finish]
        rfl
    · rfl

section

variable {margins : Margins} (behind : margins.front + margins.core ≤ margins.finish)

include behind

theorem Token.trimmed_moved {token : Token} (inside : token.offset < margins.core) :
    (token.moved margins.front).trimmed margins = token := by
  have before : ¬ ((token.moved margins.front).offset = margins.finish ∧
      (token.moved margins.front).kind = .lineEnd) := by
    rintro ⟨ends, _⟩
    change token.offset + margins.front = margins.finish at ends
    omega
  rw [Token.trimmed, if_neg before]
  change { token with offset := margins.byte (token.offset + margins.front) } = token
  rw [Margins.byte_add inside behind]

theorem Fault.trimmed_moved {fault : Fault} (inside : fault.position < margins.core) :
    (fault.moved margins.front).trimmed margins = fault := by
  have same := Margins.byte_add inside behind
  cases fault with
  | lexical detail position => exact congrArg (Fault.lexical detail) same
  | unclosed position => exact congrArg Fault.unclosed same
  | unexpected found position =>
      have before : ¬ (position + margins.front = margins.finish ∧ found = "end of line") := by
        rintro ⟨ends, _⟩
        change position < margins.core at inside
        omega
      rw [Fault.moved, Fault.trimmed, if_neg before]
      exact congrArg (Fault.unexpected found) same

end

/-! ### The tokens of a line with margins -/

def IsPadding (back : List Char) : Prop :=
  ∀ character ∈ back, isBlank character = true ∨ character = '\n'

private theorem separates_of_padding {back : List Char} {next : Char} {more : List Char}
    (padding : IsPadding back) (starts : back = next :: more) : Separates next := by
  rcases padding next (by rw [starts]; exact List.mem_cons_self) with blank | rfl
  · have member := of_decide_eq_true blank
    simp only [List.mem_cons, List.not_mem_nil, or_false] at member
    rcases member with rfl | rfl | rfl | rfl | rfl <;> exact ⟨rfl, by decide⟩
  · exact separates_lineFeed

/-- Behind the blanks, padding has a line feed or the end of the input. -/
private theorem exists_pieces_padding (position : Nat) {back : List Char}
    (padding : IsPadding back) :
    ∃ (others : List Token) (ending : Except Fault Token) (terminator : Token)
      (more : List (Except Fault Token)),
      Pieces position back others ending ∧ others.map .ok ++ [ending] = .ok terminator :: more ∧
      terminator.offset = position + encodedSize (back.takeWhile isBlank) ∧
      (terminator = .inputEnd terminator.offset ∨ terminator.kind = .lineEnd) := by
  have split : back.takeWhile isBlank ++ back.dropWhile isBlank = back :=
    List.takeWhile_append_dropWhile
  have blank : ∀ character ∈ back.takeWhile isBlank, isBlank character = true :=
    fun _ member => of_mem_takeWhile member
  generalize back.takeWhile isBlank = blanks at split blank ⊢
  cases behind : back.dropWhile isBlank with
  | nil =>
      rw [behind, List.append_nil] at split
      subst split
      exact ⟨[], _, _, [], Pieces.ended position blanks blank, rfl, rfl, Or.inl rfl⟩
  | cons first rest =>
      have notBlank : isBlank first = false := of_mem_head?_dropWhile (by rw [behind]; rfl)
      have member : first ∈ back := by
        rw [← split, behind]
        exact List.mem_append_right _ List.mem_cons_self
      have isFeed : first = '\n' := by
        rcases padding first member with isBlank | isFeed
        · rw [notBlank] at isBlank
          cases isBlank
        · exact isFeed
      obtain ⟨others, ending, pieces⟩ :=
        exists_pieces (position + encodedSize blanks + '\n'.utf8Size) rest
      have feed := Pieces.single (rfl : Kind.lineEnd.character? = some '\n')
        (fun _ => Kind.noConfusion) pieces
      rw [behind, isFeed] at split
      have whole := feed.blanks_append blank
      rw [split] at whole
      exact ⟨_, ending, _, others.map .ok ++ [ending], whole, rfl, rfl, Or.inr rfl⟩

private theorem Pieces.padding_of_fault {position : Nat} {core back : List Char}
    {tokens : List Token} {fault : Fault} (pieces : Pieces position core tokens (.error fault))
    (padding : IsPadding back) : Pieces position (core ++ back) tokens (.error fault) := by
  cases back with
  | nil =>
      rw [List.append_nil]
      exact pieces
  | cons next more => exact pieces.append_of_fault (separates_of_padding padding rfl) more

private theorem Pieces.padding {position : Nat} {core back : List Char} {tokens others : List Token}
    {ending : Except Fault Token}
    (pieces : Pieces position core tokens (.ok (.inputEnd (position + encodedSize core))))
    (padding : IsPadding back) (behind : Pieces (position + encodedSize core) back others ending) :
    Pieces position (core ++ back) (tokens ++ others) ending := by
  cases back with
  | nil =>
      have nothing := Pieces.ended (position + encodedSize core) [] (List.forall_mem_nil _)
      obtain ⟨rfl, rfl⟩ := tokens_last_inj
        ((Scanner.answers_of_pieces behind).symm.trans (Scanner.answers_of_pieces nothing))
      rw [List.append_nil, List.append_nil]
      exact pieces
  | cons next more => exact pieces.append (separates_of_padding padding rfl) behind

private theorem Token.trimmed_finish {margins : Margins} {token : Token}
    (stands : token.offset = margins.finish)
    (ends : token = .inputEnd token.offset ∨ token.kind = .lineEnd) :
    token.trimmed margins = .inputEnd margins.core := by
  unfold Token.trimmed
  split
  · rfl
  · next stays =>
      rcases ends with isEnd | isFeed
      · rw [stands, margins.byte_finish]
        rw [isEnd]
        rfl
      · exact absurd ⟨stands, isFeed⟩ stays

private theorem Decomposition.position_lt {line : List Char} {tokens : List Token} {fault : Fault}
    (decomposed : Decomposition line tokens (.error fault)) :
    fault.position < encodedSize line := by
  obtain ⟨before, rest, rfl, refused⟩ := decomposed.ends
  have notEmpty : rest ≠ [] := by
    cases refused with
    | stray character rest notBlank noToken => exact List.cons_ne_nil _ _
    | outOfRange numeral rest wellFormed longest infinite =>
        exact List.append_ne_nil_of_left_ne_nil wellFormed.chars_ne_nil rest
  have bytes := encodedSize_pos notEmpty
  rw [refused.position_eq, encodedSize_append]
  omega

section

variable {front back : List Char} (core : List Char)
  (blank : ∀ character ∈ front, isBlank character = true) (padding : IsPadding back)

include blank padding

/-- The answers for the line, up to the one that ends the text, are those for the text. -/
theorem exists_answers_around :
    ∃ shared more, (Scanner.mk (front ++ (core ++ back)) 0).answers = shared ++ more ∧
      (Scanner.mk core 0).answers = shared.map (relabelled
        (Token.trimmed (.around front core back)) (Fault.trimmed (.around front core back))) := by
  have behind : encodedSize front + encodedSize core ≤ (Margins.around front core back).finish :=
    Nat.le_add_right _ _
  obtain ⟨tokens, last, pieces⟩ := exists_pieces 0 core
  have decomposed := (decomposition_iff_pieces _ _ _).mpr pieces
  have moved := pieces.moved (encodedSize front)
  have kept : ((tokens.map (Token.moved (encodedSize front))).map Except.ok).map
      (relabelled (Token.trimmed (.around front core back))
        (Fault.trimmed (.around front core back))) = tokens.map Except.ok := by
    rw [List.map_map, List.map_map]
    apply List.map_congr_left
    intro token member
    have spans := encodedSize_pos (decomposed.covers.spelled token member).span_ne_nil
    have within := decomposed.covers.inside token member
    have reaches := pieces.offset_le.1
    rw [Token.finish] at within
    have inside : token.offset < encodedSize core := by omega
    exact congrArg Except.ok (Token.trimmed_moved behind inside)
  rw [Scanner.answers_of_pieces pieces]
  cases last with
  | error fault =>
      have same : (fault.moved (encodedSize front)).trimmed (.around front core back) = fault :=
        Fault.trimmed_moved behind decomposed.position_lt
      have whole := (moved.padding_of_fault padding).blanks_append blank
      rw [Scanner.answers_of_pieces whole]
      refine ⟨_, [], (List.append_nil _).symm, ?_⟩
      rw [List.map_append, kept]
      exact congrArg (fun fault => tokens.map Except.ok ++ [Except.error fault]) same.symm
  | ok token =>
      have isEnd : token = .inputEnd (encodedSize core) := decomposed.ends
      obtain ⟨others, ending, terminator, more, padded, starts, stands, isTerminator⟩ :=
        exists_pieces_padding (0 + encodedSize front + encodedSize core) padding
      have reaches : movedAnswer (encodedSize front) (.ok token) =
          .ok (.inputEnd (0 + encodedSize front + encodedSize core)) := by
        rw [isEnd, Nat.zero_add, Nat.add_comm (encodedSize front)]
        rfl
      rw [reaches] at moved
      have whole := (moved.padding padding padded).blanks_append blank
      refine ⟨(tokens.map (Token.moved (encodedSize front))).map .ok ++ [.ok terminator], more,
        ?_, ?_⟩
      · rw [Scanner.answers_of_pieces whole, List.map_append, List.append_assoc, starts,
          List.append_assoc]
        rfl
      · rw [Nat.zero_add] at stands
        rw [List.map_append, kept, isEnd]
        have same : terminator.trimmed (.around front core back) = .inputEnd (encodedSize core) :=
          Token.trimmed_finish stands isTerminator
        exact congrArg (fun token => tokens.map Except.ok ++ [Except.ok token]) same.symm

end

/-- A text has the value of the line that it stands in, or the fault, trimmed. -/
theorem evaluate_core {front core back : String}
    (blank : ∀ character ∈ front.toList, isBlank character = true)
    (padding : IsPadding back.toList) :
    evaluate core = (evaluate (front ++ core ++ back)).mapError
      (Fault.trimmed (.around front.toList core.toList back.toList)) := by
  have relabels := relabels_trimmed (.around front.toList core.toList back.toList)
  obtain ⟨shared, more, answersLine, answersCore⟩ :=
    exists_answers_around core.toList blank padding
  have chars : (front ++ core ++ back).toList = front.toList ++ (core.toList ++ back.toList) := by
    rw [String.toList_append, String.toList_append, List.append_assoc]
  have line : (Scanner.ofLine (front ++ core ++ back)).answers = shared ++ more := by
    rw [Scanner.ofLine, chars]
    exact answersLine
  -- the automaton stops at an answer for the text, hence at one for the line
  have stopped := Automaton.run_evaluate core
  rw [Scanner.ofLine, answersCore, Automaton.run_relabelled relabels] at stopped
  obtain ⟨outcome, stops, _⟩ := Option.map_eq_some_iff.mp stopped
  rw [← List.append_nil (shared.map _)] at answersCore
  exact relabels.evaluate_eq line answersCore stops

/-! ### Trimming -/

theorem isWhiteSpace_of_isBlank {character : Char} (blank : isBlank character = true) :
    Unicode.isWhiteSpace character = true := by
  apply Unicode.isWhiteSpace_of_mem_ascii
  have member := of_decide_eq_true blank
  simp only [List.mem_cons, List.not_mem_nil, or_false] at member ⊢
  tauto

theorem Text.trim_of_margins {front core back : String}
    (white : ∀ character ∈ front.toList, Unicode.isWhiteSpace character = true)
    (whiteBehind : ∀ character ∈ back.toList, Unicode.isWhiteSpace character = true)
    (nonempty : core ≠ "")
    (first : ∀ character ∈ core.toList.head?, Unicode.isWhiteSpace character = false)
    (last : ∀ character ∈ core.toList.getLast?, Unicode.isWhiteSpace character = false) :
    trim (front ++ core ++ back) = core := by
  have chars : core.toList ≠ [] := by
    intro nothing
    exact nonempty (String.toList_inj.mp nothing)
  have begins : (core.toList ++ back.toList).head? = core.toList.head? := by
    rw [List.head?_append, List.head?_eq_some_head chars]
    rfl
  have ends : core.toList.reverse.head? = core.toList.getLast? := List.head?_reverse
  rw [← begins] at first
  rw [← ends] at last
  have reversed : ∀ character ∈ back.toList.reverse, Unicode.isWhiteSpace character = true :=
    fun character member => whiteBehind character (List.mem_reverse.mp member)
  rw [trim, trimChars, String.toList_append, String.toList_append, List.append_assoc,
    dropWhile_append_of_stop white first, List.reverse_append,
    dropWhile_append_of_stop reversed last, List.reverse_reverse, String.ofList_toList]

/-! ### Two ways to a value -/

namespace Session

/-- A session that is given a text with blanks in front of it and blanks and line feeds
behind it answers as the line does that is evaluated as it stands, with all positions
counted from the start of the text. -/
theorem reply_with_margins (session : Session) (few : session.precision ≤ Binary64.greatestPlaces)
    {front core back : String} (blank : ∀ character ∈ front.toList, isBlank character = true)
    (padding : IsPadding back.toList) (nonempty : core ≠ "") (stays : core ≠ exitCommand)
    (first : ∀ character ∈ core.toList.head?, Unicode.isWhiteSpace character = false)
    (last : ∀ character ∈ core.toList.getLast?, Unicode.isWhiteSpace character = false) :
    match evaluate (front ++ core ++ back) with
    | .ok value => ∃ text, value.fixed? session.precision = some text ∧
        (session.reply (front ++ core ++ back)).1 = .print ("= " ++ text)
    | .error fault => (session.reply (front ++ core ++ back)).1 =
        .print ("Error: " ++
          (fault.trimmed (.around front.toList core.toList back.toList)).message) := by
  have white : ∀ character ∈ front.toList, Unicode.isWhiteSpace character = true :=
    fun character member => isWhiteSpace_of_isBlank (blank character member)
  have whiteBehind : ∀ character ∈ back.toList, Unicode.isWhiteSpace character = true := by
    intro character member
    rcases padding character member with isBlank | rfl
    · exact isWhiteSpace_of_isBlank isBlank
    · decide
  have trimmed := Text.trim_of_margins white whiteBehind nonempty first last
  have replied : (session.reply (front ++ core ++ back)).1 = _ :=
    session.reply_fst_eq (by rw [trimmed]; exact stays) (by rw [trimmed]; exact nonempty)
  rw [trimmed, evaluate_core blank padding] at replied
  cases found : evaluate (front ++ core ++ back) with
  | ok value =>
      have shown := Binary64.fixed?_eq few value
      rw [found, Except.mapError, answerText?, shown] at replied
      exact ⟨_, shown, replied⟩
  | error fault =>
      rw [found] at replied
      exact replied

/-- The operand is missing in front of the line feed, and the session says that the input has
ended there, at the end of the text. -/
theorem reply_with_margins_of_missing_operand :
    ((start 6).precision ≤ Binary64.greatestPlaces ∧
      (∀ character ∈ "\t ".toList, isBlank character = true) ∧
      IsPadding " \n\n".toList ∧ "(2 -" ≠ "" ∧ "(2 -" ≠ exitCommand ∧
      (∀ character ∈ "(2 -".toList.head?, Unicode.isWhiteSpace character = false) ∧
      (∀ character ∈ "(2 -".toList.getLast?, Unicode.isWhiteSpace character = false)) ∧
    evaluate ("\t " ++ "(2 -" ++ " \n\n") = .error (.unexpected "end of line" 7) ∧
      ((start 6).reply ("\t " ++ "(2 -" ++ " \n\n")).1 =
        .print "Error: syntax error at offset 4: unexpected end of input" := by
  have few : (start 6).precision ≤ Binary64.greatestPlaces := by decide
  have blank : ∀ character ∈ "\t ".toList, isBlank character = true :=
    List.all_eq_true.mp (by decide)
  have padding : IsPadding " \n\n".toList := by
    intro character member
    have among : character ∈ [' ', '\n', '\n'] := member
    simp only [List.mem_cons, List.not_mem_nil, or_false] at among
    rcases among with rfl | rfl | rfl <;> decide
  have first : ∀ character ∈ "(2 -".toList.head?, Unicode.isWhiteSpace character = false := by
    rintro character ⟨⟩
    decide
  have last : ∀ character ∈ "(2 -".toList.getLast?, Unicode.isWhiteSpace character = false := by
    rintro character ⟨⟩
    decide
  have found : evaluate ("\t " ++ "(2 -" ++ " \n\n") = .error (.unexpected "end of line" 7) := by
    decide +kernel
  have replied := (start 6).reply_with_margins few blank padding (by decide) (by decide) first last
  rw [found] at replied
  refine ⟨⟨few, blank, padding, by decide, by decide, first, last⟩, found, replied.trans ?_⟩
  decide +kernel

end Session
end Abacus
