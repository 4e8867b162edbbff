/-
A blank more between the tokens.

A text is cut into pieces from the left.  As long as the blank is not reached a piece stays
as it is, since a numeral could not go on with a blank either; where the blank stands among
the blanks in front of a piece, that piece and all behind it have moved.
-/

import Abacus.Proofs.Embedding
import Abacus.Proofs.Relabelling

namespace Abacus

/-! ### Making room -/

def Token.spread (place : Nat) (token : Token) : Token :=
  if place ≤ token.offset then token.moved 1 else token

def Fault.spread (place : Nat) (fault : Fault) : Fault :=
  if place ≤ fault.position then fault.moved 1 else fault

def spreadAnswer (place : Nat) : Except Fault Token → Except Fault Token :=
  relabelled (Token.spread place) (Fault.spread place)

theorem relabels_spread (place : Nat) : Relabels (Token.spread place) (Fault.spread place) where
  kind token _ := by
    unfold Token.spread
    split <;> rfl
  ends token := by
    unfold Token.spread
    split <;> rfl
  misplaced token := by
    unfold Token.spread Fault.spread
    change _ = if place ≤ token.offset then _ else _
    split <;> rfl
  unclosed token := by
    unfold Token.spread Fault.spread
    change _ = if place ≤ token.offset then _ else _
    split <;> rfl

theorem spreadAnswer_of_le {place : Nat} {answer : Except Fault Token}
    (behind : place ≤ answerPosition answer) :
    spreadAnswer place answer = movedAnswer 1 answer := by
  cases answer with
  | ok token => exact congrArg Except.ok (if_pos behind)
  | error fault => exact congrArg Except.error (if_pos behind)

theorem spreadAnswer_of_lt {place : Nat} {answer : Except Fault Token}
    (before : answerPosition answer < place) : spreadAnswer place answer = answer := by
  cases answer with
  | ok token => exact congrArg Except.ok (if_neg (Nat.not_le_of_lt before))
  | error fault => exact congrArg Except.error (if_neg (Nat.not_le_of_lt before))

/-! ### Blanks -/

theorem separates_of_isBlank {character : Char} (blank : isBlank character = true) :
    Separates character ∧ character.utf8Size = 1 := by
  have member := of_decide_eq_true blank
  simp only [List.mem_cons, List.not_mem_nil, or_false] at member
  rcases member with rfl | rfl | rfl | rfl | rfl <;> exact ⟨⟨rfl, by decide⟩, rfl⟩

theorem LongestBefore.insert {text front back : List Char} {next : Char}
    (longest : LongestBefore text (front ++ back)) (separates : Separates next) :
    LongestBefore text (front ++ next :: back) := by
  have prior : LongestBefore text front := by
    intro first isFirst
    apply longest first
    rw [List.head?_append, Option.mem_def.mp isFirst]
    rfl
  exact prior.append separates back

theorem exists_behind_blanks {front back blanks rest : List Char}
    (split : blanks ++ rest = front ++ back)
    (blank : ∀ character ∈ blanks, isBlank character = true)
    (among : ¬ ∀ character ∈ front, isBlank character = true) :
    ∃ first more, front = blanks ++ first :: more ∧ rest = first :: more ++ back := by
  rcases List.append_eq_append_iff.mp split with ⟨behind, isFront, isRest⟩ | ⟨behind, isBlanks, _⟩
  · cases behind with
    | nil =>
        rw [List.append_nil] at isFront
        rw [isFront] at among
        exact absurd blank among
    | cons first more => exact ⟨first, more, isFront, isRest⟩
  · apply absurd _ among
    intro character member
    apply blank
    rw [isBlanks]
    exact List.mem_append_left behind member

/-! ### Answers behind blanks -/

namespace Scanner

section

variable {position : Nat} {blanks rest : List Char}

theorem answers_of_refused {fault : Fault} (blank : ∀ character ∈ blanks, isBlank character = true)
    (refuses : Refused (position + encodedSize blanks) rest fault) :
    (Scanner.mk (blanks ++ rest) position).answers = [.error fault] :=
  answers_of_pieces (Pieces.refused position blanks rest fault blank refuses)

theorem answers_of_token {token : Token} (blank : ∀ character ∈ blanks, isBlank character = true)
    (spelled : token.Spelled) (stands : token.offset = position + encodedSize blanks)
    (ends : token.EndsBefore rest) :
    (Scanner.mk (blanks ++ (token.span ++ rest)) position).answers =
      .ok token :: (Scanner.mk rest token.finish).answers := by
  obtain ⟨tokens, last, pieces⟩ := exists_pieces token.finish rest
  rw [answers_of_pieces pieces, answers_of_pieces
    (Pieces.token position blanks rest token tokens last blank spelled stands ends pieces)]
  rfl

theorem answers_blanks_append (position : Nat) (rest : List Char)
    (blank : ∀ character ∈ blanks, isBlank character = true) :
    (Scanner.mk (blanks ++ rest) position).answers =
      (Scanner.mk rest (position + encodedSize blanks)).answers := by
  obtain ⟨tokens, last, pieces⟩ := exists_pieces (position + encodedSize blanks) rest
  rw [answers_of_pieces pieces, answers_of_pieces (pieces.blanks_append blank)]

theorem answers_moved (position bytes : Nat) (chars : List Char) :
    (Scanner.mk chars (position + bytes)).answers =
      (Scanner.mk chars position).answers.map (movedAnswer bytes) := by
  obtain ⟨tokens, last, pieces⟩ := exists_pieces position chars
  rw [answers_of_pieces pieces, answers_of_pieces (pieces.moved bytes)]
  simp [movedAnswer]

theorem le_answerPosition (position : Nat) (chars : List Char) :
    ∀ answer ∈ (Scanner.mk chars position).answers, position ≤ answerPosition answer := by
  obtain ⟨tokens, last, pieces⟩ := exists_pieces position chars
  rw [answers_of_pieces pieces]
  induction pieces with
  | ended position blanks blank =>
      intro answer member
      rw [List.mem_singleton.mp member]
      exact Nat.le_add_right _ _
  | refused position blanks rest fault blank refuses =>
      intro answer member
      rw [List.mem_singleton.mp member, answerPosition, refuses.position_eq]
      exact Nat.le_add_right _ _
  | token position blanks rest token tokens last blank spelled stands ends _ ih =>
      intro answer member
      rcases List.mem_cons.mp member with rfl | later
      · rw [answerPosition, stands]
        exact Nat.le_add_right _ _
      · have further := ih answer later
        rw [Token.finish, stands] at further
        omega

end

end Scanner

/-! ### Places outside of numerals -/

/-- A numeral among the answers reaches from the one byte to the other.  Where it is out of
range, it is named by the fault. -/
inductive HasNumeral (answers : List (Except Fault Token)) : Nat → Nat → Prop where
  | number (token : Token) (value : Binary64) (member : .ok token ∈ answers)
      (isNumber : token.kind = .number value) : HasNumeral answers token.offset token.finish
  | outOfRange (text : String) (position : Nat)
      (member : .error (.outOfRange text position) ∈ answers) :
      HasNumeral answers position (position + text.utf8ByteSize)

theorem HasNumeral.behind {answer : Except Fault Token} {answers : List (Except Fault Token)}
    {start finish : Nat} (has : HasNumeral answers start finish) :
    HasNumeral (answer :: answers) start finish := by
  cases has with
  | number token value member isNumber =>
      exact HasNumeral.number token value (List.mem_cons_of_mem _ member) isNumber
  | outOfRange text _ member =>
      exact HasNumeral.outOfRange text start (List.mem_cons_of_mem _ member)

def IsOutside (place : Nat) (answers : List (Except Fault Token)) : Prop :=
  ∀ start finish, HasNumeral answers start finish → ¬ (start < place ∧ place < finish)

variable {added : Char} {front back : List Char} {position : Nat}

/-- A text that no token can be taken from still is one when a blank is put into it, unless
the blank cuts a numeral. -/
theorem Refused.insert {first : Char} {more : List Char} {fault : Fault}
    (refuses : Refused position (first :: more ++ back) fault) (separates : Separates added)
    (outside : IsOutside (position + encodedSize (first :: more)) [.error fault]) :
    Refused position (first :: more ++ added :: back) fault := by
  generalize split : first :: more ++ back = rest at refuses
  cases refuses with
  | stray character rest notBlank noToken =>
      cases split
      exact Refused.stray first _ notBlank noToken
  | outOfRange numeral rest wellFormed longest infinite =>
      have bytes := encodedSize_pos (List.cons_ne_nil first more)
      have uncut := outside _ _
        (HasNumeral.outOfRange (String.ofList numeral.chars) position List.mem_cons_self)
      rw [← encodedSize_toList, String.toList_ofList] at uncut
      obtain ⟨between, isFront, rfl⟩ := exists_append_of_encodedSize_le split.symm (by omega)
      rw [isFront, List.append_assoc]
      exact Refused.outOfRange numeral _ wellFormed (longest.insert separates) infinite

/-- In the text a token stands either before the place or behind it, as only numerals have
more than one character. -/
theorem exists_behind_token {token : Token} {first : Char} {more rest : List Char}
    {answers : List (Except Fault Token)} (spelled : token.Spelled)
    (split : token.span ++ rest = first :: more ++ back)
    (outside : IsOutside (token.offset + encodedSize (first :: more)) (.ok token :: answers)) :
    ∃ between, first :: more = token.span ++ between ∧ rest = between ++ back := by
  apply exists_append_of_encodedSize_le split
  have bytes := encodedSize_pos (List.cons_ne_nil first more)
  cases spelled with
  | number numeral value offset wellFormed denotes =>
      have uncut := outside _ _ (HasNumeral.number _ value List.mem_cons_self rfl)
      rw [Token.finish] at uncut
      omega
  | single kind character offset is =>
      rw [Token.span_single is] at split ⊢
      cases split
      exact Nat.le_add_right _ _

/-! ### A blank more -/

namespace Scanner

theorem answers_insert_among (blank : isBlank added = true)
    (among : ∀ character ∈ front, isBlank character = true) :
    (Scanner.mk (front ++ added :: back) position).answers =
      (Scanner.mk (front ++ back) position).answers.map
        (spreadAnswer (position + encodedSize front)) := by
  have amongAll : ∀ character ∈ front ++ [added], isBlank character = true := by
    intro character member
    rcases List.mem_append.mp member with before | last
    · exact among character before
    · rw [List.mem_singleton.mp last]
      exact blank
  have size : encodedSize (front ++ [added]) = encodedSize front + 1 := by
    rw [encodedSize_append, encodedSize_cons, (separates_of_isBlank blank).2]
    rfl
  rw [List.append_cons, answers_blanks_append position back amongAll,
    answers_blanks_append position back among, size, ← Nat.add_assoc, answers_moved]
  apply List.map_congr_left
  intro answer member
  exact (spreadAnswer_of_le (le_answerPosition _ _ answer member)).symm

/-- With a blank more, and no numeral cut by it, the answers are the same, those behind it
a byte further behind. -/
theorem answers_insert (blank : isBlank added = true)
    (outside : IsOutside (position + encodedSize front)
      (Scanner.mk (front ++ back) position).answers) :
    (Scanner.mk (front ++ added :: back) position).answers =
      (Scanner.mk (front ++ back) position).answers.map
        (spreadAnswer (position + encodedSize front)) := by
  have separates := (separates_of_isBlank blank).1
  obtain ⟨tokens, last, pieces⟩ := exists_pieces position (front ++ back)
  generalize split : front ++ back = chars at pieces
  induction pieces generalizing front with
  | ended position blanks blankAll =>
      subst split
      exact answers_insert_among blank fun character member =>
        blankAll character (List.mem_append_left back member)
  | refused position blanks rest fault blankAll refuses =>
      by_cases among : ∀ character ∈ front, isBlank character = true
      · rw [← split]
        exact answers_insert_among blank among
      · obtain ⟨first, more, rfl, rfl⟩ := exists_behind_blanks split.symm blankAll among
        have bytes := encodedSize_pos (List.cons_ne_nil first more)
        rw [split, answers_of_refused blankAll refuses] at outside
        rw [answers_of_refused blankAll refuses]
        rw [encodedSize_append, ← Nat.add_assoc] at outside ⊢
        have before : spreadAnswer (position + encodedSize blanks + encodedSize (first :: more))
            (.error fault) = .error fault := by
          apply spreadAnswer_of_lt
          rw [answerPosition, refuses.position_eq]
          omega
        rw [List.append_assoc, answers_of_refused blankAll (refuses.insert separates outside),
          List.map_singleton, before]
  | token position blanks rest token tokens last blankAll spelled stands ends _ ih =>
      by_cases among : ∀ character ∈ front, isBlank character = true
      · rw [← split]
        exact answers_insert_among blank among
      · obtain ⟨first, more, rfl, behind⟩ := exists_behind_blanks split.symm blankAll among
        have bytes := encodedSize_pos (List.cons_ne_nil first more)
        rw [split, answers_of_token blankAll spelled stands ends] at outside
        rw [answers_of_token blankAll spelled stands ends]
        rw [encodedSize_append, ← Nat.add_assoc, ← stands] at outside ⊢
        have before : spreadAnswer (token.offset + encodedSize (first :: more)) (.ok token) =
            .ok token := by
          apply spreadAnswer_of_lt
          rw [answerPosition]
          omega
        obtain ⟨between, isFront, rfl⟩ := exists_behind_token spelled behind outside
        have place : token.offset + encodedSize (first :: more) =
            token.finish + encodedSize between := by
          rw [isFront, encodedSize_append, Token.finish, Nat.add_assoc]
        have endsAgain : token.EndsBefore (between ++ added :: back) :=
          fun value isNumber => (ends value isNumber).insert separates
        rw [place] at outside before ⊢
        rw [List.map_cons, before, ← ih (fun _ _ has => outside _ _ has.behind) rfl, isFront,
          List.append_assoc, List.append_assoc, answers_of_token blankAll spelled stands endsAgain]

theorem stream_eq_map_of_answers {left right : Scanner} {place : Nat}
    (answers : right.answers = left.answers.map (spreadAnswer place)) :
    right.stream = left.stream.map (spreadAnswer place) := by
  obtain ⟨tokens, last, finite, infinite, _⟩ := left.exists_answers_eq
  have moved : right.answers =
      (tokens.map (Token.spread place)).map .ok ++ [spreadAnswer place last] := by
    rw [answers, finite]
    simp [spreadAnswer, relabelled]
  rw [stream_of_answers moved, infinite, Stream'.map_append_stream, Stream'.map_const,
    List.map_map, List.map_map]
  rfl

end Scanner

/-- A blank that is put into a line, but not into a numeral, moves what is behind it and
changes nothing else, neither of the answers nor of the value. -/
theorem stream_and_evaluate_insert {added : Char} {front back : String}
    (blank : isBlank added = true)
    (outside : IsOutside front.utf8ByteSize (Scanner.ofLine (front ++ back)).answers) :
    (Scanner.ofLine (front ++ added.toString ++ back)).stream =
        (Scanner.ofLine (front ++ back)).stream.map (spreadAnswer front.utf8ByteSize) ∧
      evaluate (front ++ added.toString ++ back) =
        (evaluate (front ++ back)).mapError (Fault.spread front.utf8ByteSize) := by
  have chars : (front ++ added.toString ++ back).toList =
      front.toList ++ added :: back.toList := by
    simp
  have place : 0 + encodedSize front.toList = front.utf8ByteSize := by
    rw [Nat.zero_add, encodedSize_toList]
  have answers : (Scanner.ofLine (front ++ added.toString ++ back)).answers =
      (Scanner.ofLine (front ++ back)).answers.map (spreadAnswer front.utf8ByteSize) := by
    rw [Scanner.ofLine, String.toList_append, ← place] at outside
    rw [Scanner.ofLine, Scanner.ofLine, chars, String.toList_append, ← place]
    exact Scanner.answers_insert blank outside
  constructor
  · exact Scanner.stream_eq_map_of_answers answers
  · rw [← List.append_nil (List.map _ _)] at answers
    exact (relabels_spread front.utf8ByteSize).evaluate_eq (List.append_nil _).symm answers
      (Automaton.run_evaluate (front ++ back))

/-- The blank stands right behind a numeral that ends with its point. -/
theorem stream_and_evaluate_insert_of_point :
    (isBlank '\x0b' = true ∧ IsOutside 2 (Scanner.ofLine "1.+é").answers) ∧
      (Scanner.ofLine "1.\x0b+é").stream = (Scanner.ofLine "1.+é").stream.map (spreadAnswer 2) ∧
      evaluate "1.\x0b+é" = .error (.lexical "unexpected character 'é'" 4) := by
  have answers : (Scanner.ofLine "1.+é").answers =
      [.ok (.number "1." ⟨0x3ff0000000000000⟩ 0), .ok ⟨.operator .plus, "+", 2⟩,
        .error (.lexical "unexpected character 'é'" 3)] := by
    decide +kernel
  have outside : IsOutside 2 (Scanner.ofLine "1.+é").answers := by
    intro start finish has
    rw [answers] at has
    cases has with
    | number token value member isNumber =>
        simp only [List.mem_cons, Except.ok.injEq, List.not_mem_nil, or_false] at member
        rcases member with rfl | rfl | absurd
        · decide
        · cases isNumber
        · cases absurd
    | outOfRange text _ member =>
        simp only [Fault.outOfRange, List.mem_cons, reduceCtorEq, Except.error.injEq,
          Fault.lexical.injEq, List.not_mem_nil, or_false, false_or] at member
        omega
  have blank : isBlank '\x0b' = true := by decide
  have inserted := @stream_and_evaluate_insert '\x0b' "1." "+é" blank outside
  exact ⟨⟨blank, outside⟩, inserted.1, inserted.2.trans (by decide +kernel)⟩

end Abacus
