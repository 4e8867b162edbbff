/-
The tokens of a text with other text around it.

A text that stands further behind in a line has the same tokens, further behind.  Of two
texts in a row the tokens of the first come first, if the second does not begin with a
character that a numeral could go on with.
-/

import Abacus.Proofs.Decomposition
import Abacus.Proofs.Language

namespace Abacus

/-! ### Moving -/

def Token.moved (bytes : Nat) (token : Token) : Token :=
  { token with offset := token.offset + bytes }

theorem Token.kind_moved (token : Token) (bytes : Nat) : (token.moved bytes).kind = token.kind :=
  rfl

def Fault.moved (bytes : Nat) : Fault → Fault
  | lexical detail position => lexical detail (position + bytes)
  | unexpected found position => unexpected found (position + bytes)
  | unclosed position => unclosed (position + bytes)

def movedAnswer (bytes : Nat) : Except Fault Token → Except Fault Token
  | .ok token => .ok (token.moved bytes)
  | .error fault => .error (fault.moved bytes)

theorem Token.Spelled.moved {token : Token} (spelled : token.Spelled) (bytes : Nat) :
    (token.moved bytes).Spelled := by
  cases spelled with
  | number numeral value offset wellFormed denotes =>
      exact Spelled.number numeral value (offset + bytes) wellFormed denotes
  | single kind character offset is => exact Spelled.single kind character (offset + bytes) is

theorem Token.finish_moved (token : Token) (bytes : Nat) :
    (token.moved bytes).finish = token.finish + bytes :=
  Nat.add_right_comm token.offset bytes _

theorem Refused.moved {position : Nat} {rest : List Char} {fault : Fault}
    (refused : Refused position rest fault) (bytes : Nat) :
    Refused (position + bytes) rest (fault.moved bytes) := by
  cases refused with
  | stray character rest notBlank noToken => exact Refused.stray character rest notBlank noToken
  | outOfRange numeral rest wellFormed longest infinite =>
      exact Refused.outOfRange numeral rest wellFormed longest infinite

theorem Pieces.moved {position : Nat} {chars : List Char} {tokens : List Token}
    {last : Except Fault Token} (pieces : Pieces position chars tokens last) (bytes : Nat) :
    Pieces (position + bytes) chars (tokens.map (Token.moved bytes)) (movedAnswer bytes last) := by
  induction pieces with
  | ended position blanks blank =>
      have ended := Pieces.ended (position + bytes) blanks blank
      rw [Nat.add_right_comm] at ended
      exact ended
  | refused position blanks rest fault blank refuses =>
      have refused := refuses.moved bytes
      rw [Nat.add_right_comm] at refused
      exact Pieces.refused (position + bytes) blanks rest _ blank refused
  | token position blanks rest token tokens last blank spelled stands ends more ih =>
      have standsMoved : (token.moved bytes).offset = position + bytes + encodedSize blanks := by
        rw [Nat.add_right_comm, ← stands]
        rfl
      rw [← token.finish_moved] at ih
      exact Pieces.token (position + bytes) blanks rest (token.moved bytes) _ _ blank
        (spelled.moved bytes) standsMoved ends ih

/-! ### Text behind a text -/

/-- A numeral in front of the character cannot go on with it. -/
def Separates (next : Char) : Prop :=
  next.isDigit = false ∧ next ≠ '.'

theorem separates_opening : Separates '(' :=
  ⟨rfl, by decide⟩

theorem separates_closing : Separates ')' :=
  ⟨rfl, by decide⟩

theorem LongestBefore.append {text rest : List Char} {next : Char}
    (longest : LongestBefore text rest) (separates : Separates next) (more : List Char) :
    LongestBefore text (rest ++ next :: more) := by
  intro first isFirst
  cases rest with
  | cons character others => exact longest first isFirst
  | nil =>
      cases isFirst
      intro isNumeral
      rcases isNumeral.digit_or_point next (by simp) with digit | point
      · rw [separates.1] at digit
        cases digit
      · exact separates.2 point

theorem Refused.append {position : Nat} {rest : List Char} {fault : Fault} {next : Char}
    (refused : Refused position rest fault) (separates : Separates next) (more : List Char) :
    Refused position (rest ++ next :: more) fault := by
  cases refused with
  | stray character rest notBlank noToken => exact Refused.stray character _ notBlank noToken
  | outOfRange numeral rest wellFormed longest infinite =>
      rw [List.append_assoc]
      exact Refused.outOfRange numeral _ wellFormed (longest.append separates more) infinite

section

variable {position : Nat} {front more : List Char} {next : Char} {tokens others : List Token}
  {last ending : Except Fault Token}

/-- What follows a text without a next token is hidden. -/
theorem Pieces.append_of_fault {fault : Fault}
    (pieces : Pieces position front tokens (.error fault)) (separates : Separates next)
    (more : List Char) : Pieces position (front ++ next :: more) tokens (.error fault) := by
  generalize refused : Except.error fault = last at pieces
  induction pieces with
  | ended position blanks blank => cases refused
  | refused position blanks rest fault blank refuses =>
      rw [List.append_assoc]
      exact Pieces.refused position blanks _ fault blank (refuses.append separates more)
  | token position blanks rest token tokens last blank spelled stands ends _ ih =>
      rw [List.append_assoc, List.append_assoc]
      exact Pieces.token position blanks _ token tokens last blank spelled stands
        (fun value isNumber => (ends value isNumber).append separates more) (ih refused)

theorem Pieces.blanks_append {blanks : List Char}
    (blank : ∀ character ∈ blanks, isBlank character = true)
    (pieces : Pieces (position + encodedSize blanks) front tokens last) :
    Pieces position (blanks ++ front) tokens last := by
  have both {more : List Char} (blankMore : ∀ character ∈ more, isBlank character = true) :
      ∀ character ∈ blanks ++ more, isBlank character = true := by
    intro character member
    rcases List.mem_append.mp member with before | behind
    · exact blank character before
    · exact blankMore character behind
  cases pieces with
  | ended _ _ blankFront =>
      rw [Nat.add_assoc, ← encodedSize_append]
      exact Pieces.ended position (blanks ++ front) (both blankFront)
  | refused _ more rest fault blankMore refuses =>
      rw [Nat.add_assoc, ← encodedSize_append] at refuses
      rw [← List.append_assoc]
      exact Pieces.refused position (blanks ++ more) rest fault (both blankMore) refuses
  | token _ more rest token tokens last blankMore spelled stands ends others =>
      rw [Nat.add_assoc, ← encodedSize_append] at stands
      rw [← List.append_assoc]
      exact Pieces.token position (blanks ++ more) rest token tokens last (both blankMore)
        spelled stands ends others

theorem Pieces.append {token : Token} (pieces : Pieces position front tokens (.ok token))
    (separates : Separates next)
    (behind : Pieces (position + encodedSize front) (next :: more) others ending) :
    Pieces position (front ++ next :: more) (tokens ++ others) ending := by
  generalize isEnd : Except.ok token = last at pieces
  induction pieces with
  | ended position blanks blank => exact behind.blanks_append blank
  | refused position blanks rest fault blank refuses => cases isEnd
  | token position blanks rest token tokens last blank spelled stands ends _ ih =>
      have reaches : position + encodedSize (blanks ++ (token.span ++ rest)) =
          token.finish + encodedSize rest := by
        rw [encodedSize_append, encodedSize_append, Token.finish, stands]
        omega
      rw [reaches] at behind
      rw [List.append_assoc, List.append_assoc]
      exact Pieces.token position blanks _ token _ ending blank spelled stands
        (fun value isNumber => (ends value isNumber).append separates more) (ih behind isEnd)

theorem Pieces.single {kind : Kind} {character : Char} {rest : List Char}
    (is : kind.character? = some character) (notNumber : ∀ value, kind ≠ .number value)
    (pieces : Pieces (position + character.utf8Size) rest tokens last) :
    Pieces position (character :: rest)
      (⟨kind, if kind = .lineEnd then "" else character.toString, position⟩ :: tokens) last := by
  have span := Token.span_single is position
  have finish : (Token.mk kind (if kind = .lineEnd then "" else character.toString)
      position).finish = position + character.utf8Size := by
    rw [Token.finish, span]
    rfl
  have token := Pieces.token position [] rest
    ⟨kind, if kind = .lineEnd then "" else character.toString, position⟩ tokens last
    (List.forall_mem_nil _) (Token.Spelled.single kind character position is) rfl
    (fun value isNumber => absurd isNumber (notNumber value)) (by rw [finish]; exact pieces)
  rw [span] at token
  exact token

end

/-! ### The pieces of a line -/

theorem Pieces.offset_le {line : List Char} {tokens : List Token} {last : Except Fault Token}
    (pieces : Pieces 0 line tokens last) :
    answerPosition last ≤ encodedSize line ∧ ∀ token ∈ tokens, token.offset ≤ encodedSize line := by
  have decomposed := (decomposition_iff_pieces line tokens last).mpr pieces
  have reaches : answerPosition last ≤ encodedSize line := by
    cases last with
    | ok token =>
        have isEnd : token = .inputEnd (encodedSize line) := decomposed.ends
        rw [isEnd]
        exact Nat.le_refl _
    | error fault =>
        obtain ⟨front, back, rfl, refused⟩ := decomposed.ends
        change fault.position ≤ _
        rw [refused.position_eq, encodedSize_append]
        exact Nat.le_add_right _ _
  refine ⟨reaches, ?_⟩
  intro token member
  have inside := decomposed.covers.inside token member
  have longer : token.offset ≤ token.finish := Nat.le_add_right _ _
  omega

/-- Without a line feed in the line, only the end of the input ends a phrase. -/
theorem Pieces.not_terminator {line : List Char} {tokens : List Token}
    {last : Except Fault Token} (pieces : Pieces 0 line tokens last) (free : '\n' ∉ line) :
    ∀ token ∈ tokens, token.isTerminator = false := by
  have covers := ((decomposition_iff_pieces line tokens last).mpr pieces).covers
  intro token member
  rw [← Bool.not_eq_true, Token.isTerminator_iff]
  rintro (isFeed | isEnd)
  · obtain ⟨front, back, rfl, _, _⟩ := covers.stands token member
    have span : token.span = ['\n'] := by rw [Token.span, if_pos isFeed]
    rw [span] at free
    exact free (by simp)
  · exact (covers.spelled token member).ne_inputEnd isEnd

/-! ### A group in a line -/

theorem exists_pieces_of_evaluate {line : String} {value : Binary64}
    (valued : evaluate line = .ok value) (free : '\n' ∉ line.toList) :
    ∃ sentence token, Pieces 0 line.toList sentence (.ok token) ∧
      Derives .expression sentence value := by
  obtain ⟨sentence, phrased, derived⟩ := Evaluator.exists_sentence_of_readWhole valued
  obtain ⟨tokens, last, pieces⟩ := exists_pieces 0 line.toList
  have answers : (Scanner.ofLine line).answers = tokens.map .ok ++ [last] :=
    Scanner.answers_of_pieces pieces
  have inside := pieces.not_terminator free
  cases last with
  | error fault =>
      -- no terminator is among the answers, but one of them ends the phrase
      obtain ⟨terminator, rest, split, ends⟩ := Scanner.exists_terminator_of_phrase_eq phrased
      have member : .ok terminator ∈ tokens.map Except.ok ++ [Except.error fault] := by
        rw [← answers, split]
        exact List.mem_append_right _ List.mem_cons_self
      rcases List.mem_append.mp member with isToken | isFault
      · obtain ⟨token, among, same⟩ := List.mem_map.mp isToken
        cases same
        rw [inside terminator among] at ends
        cases ends
      · cases List.mem_singleton.mp isFault
  | ok token =>
      have isEnd : token = .inputEnd (encodedSize line.toList) :=
        ((decomposition_iff_pieces _ _ _).mpr pieces).ends
      have ends : token.isTerminator = true := by
        rw [isEnd]
        rfl
      have same := phrased.symm.trans (Scanner.phrase_eq_of_answers_eq answers inside ends)
      rw [(List.map_inj_right (fun _ _ => Except.ok.inj)).mp same] at derived
      exact ⟨tokens, token, pieces, derived⟩

def Token.opening (position : Nat) : Token :=
  ⟨.openParen, "(", position⟩

def Token.closing (position : Nat) : Token :=
  ⟨.closeParen, ")", position⟩

theorem pieces_of_group {front inside back : List Char} {before within behind : List Token}
    {token ending : Token} {last : Except Fault Token}
    (piecesFront : Pieces 0 front before (.ok token))
    (piecesInside : Pieces 0 inside within (.ok ending))
    (piecesBack : Pieces 0 back behind last) :
    Pieces 0 (front ++ '(' :: (inside ++ ')' :: back))
      (before ++ .opening (encodedSize front) ::
        (within.map (Token.moved (encodedSize front + 1)) ++
          .closing (encodedSize front + 1 + encodedSize inside) ::
            behind.map (Token.moved (encodedSize front + 2 + encodedSize inside))))
      (movedAnswer (encodedSize front + 2 + encodedSize inside) last) := by
  have movedBack := piecesBack.moved (encodedSize front + 2 + encodedSize inside)
  have movedInside := piecesInside.moved (encodedSize front + 1)
  rw [Nat.zero_add] at movedBack movedInside
  have closed : Pieces (encodedSize front + 1 + encodedSize inside) (')' :: back) _ _ :=
    Pieces.single (rfl : Kind.closeParen.character? = some ')') (fun _ => Kind.noConfusion)
      (by
        rw [show encodedSize front + 1 + encodedSize inside + Char.utf8Size ')' =
          encodedSize front + 2 + encodedSize inside by
            change _ + 1 = _
            omega]
        exact movedBack)
  have group := Pieces.single (rfl : Kind.openParen.character? = some '(')
    (fun _ => Kind.noConfusion) (movedInside.append separates_closing closed)
  have starts := Nat.zero_add (encodedSize front)
  exact piecesFront.append separates_opening (by rw [starts]; exact group)

end Abacus
