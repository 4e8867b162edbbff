/-
The cursor of a scanner.

However a scanner is used, its position is a place of the line between two characters, its
rest is what the line has behind that place, and what it answers is what stands there.
-/

import Abacus.Proofs.Decomposition
import Abacus.Proofs.Rescanning

namespace Abacus

/-! ### Places of a line -/

/-- The byte is a place of the line, which is not inside of a character, and `rest` is the
slice of the line from there. -/
def StandsBehind (line : String) (byte : Nat) (rest : List Char) : Prop :=
  ∃ place : line.Pos, place.offset.byteIdx = byte ∧ (line.sliceFrom place).copy.toList = rest

theorem standsBehind_append (front back : List Char) {line : String}
    (split : line.toList = front ++ back) : StandsBehind line (encodedSize front) back := by
  have whole : line = String.ofList front ++ String.ofList back := by
    rw [← String.ofList_append, ← split, String.ofList_toList]
  have splits := String.Pos.splits_ofEqAppend whole
  refine ⟨String.Pos.ofEqAppend whole, ?_, ?_⟩
  · rw [splits.offset_eq_rawEndPos, String.byteIdx_rawEndPos, ← encodedSize_toList,
      String.toList_ofList]
  · rw [splits.copy_sliceFrom_eq, String.toList_ofList]

/-! ### Texts of floating point numbers -/

def IsSign (text : List Char) : Prop :=
  text = [] ∨ text = ['+'] ∨ text = ['-']

def AreDigits (text : List Char) : Prop :=
  ∀ digit ∈ text, digit.isDigit = true

inductive IsMantissa : List Char → Prop where
  | whole (digits : List Char) (notEmpty : digits ≠ []) (all : AreDigits digits) : IsMantissa digits
  | point (before behind : List Char) (hasDigit : before ≠ [] ∨ behind ≠ [])
      (allBefore : AreDigits before) (allBehind : AreDigits behind) :
      IsMantissa (before ++ '.' :: behind)

inductive IsExponent : List Char → Prop where
  | absent : IsExponent []
  | present (letter : Char) (sign digits : List Char) (isLetter : letter = 'e' ∨ letter = 'E')
      (isSign : IsSign sign) (notEmpty : digits ≠ []) (all : AreDigits digits) :
      IsExponent (letter :: (sign ++ digits))

/-- The texts that denote a floating point number where a sign, an exponent and the names of
the values that are not finite may be written, too. -/
inductive IsFloatText : List Char → Prop where
  | named (sign name : List Char) (isSign : IsSign sign)
      (isName : String.ofList (name.map Char.toLower) ∈ ["inf", "infinity", "nan"]) :
      IsFloatText (sign ++ name)
  | number (sign mantissa exponent : List Char) (isSign : IsSign sign)
      (isMantissa : IsMantissa mantissa) (isExponent : IsExponent exponent) :
      IsFloatText (sign ++ mantissa ++ exponent)

theorem Numeral.WellFormed.isFloatText {numeral : Numeral} (wellFormed : numeral.WellFormed) :
    IsFloatText numeral.chars := by
  have mantissa : IsMantissa numeral.chars := by
    obtain ⟨whole, fraction⟩ := numeral
    cases fraction with
    | none => exact IsMantissa.whole whole wellFormed.some_digit wellFormed.whole
    | some digits =>
        exact IsMantissa.point whole digits (Or.inl wellFormed.some_digit) wellFormed.whole
          (wellFormed.fraction digits rfl)
  have number := IsFloatText.number [] numeral.chars [] (Or.inl rfl) mantissa IsExponent.absent
  rw [List.append_nil] at number
  exact number

namespace Scanner

/-! ### One step -/

inductive Step : Scanner → Except Fault Token → Scanner → Prop where
  | ended (position : Nat) (blanks : List Char)
      (blank : ∀ character ∈ blanks, isBlank character = true) :
      Step ⟨blanks, position⟩ (.ok (.inputEnd (position + encodedSize blanks)))
        ⟨[], position + encodedSize blanks⟩
  | refused (position : Nat) (blanks rest : List Char) (fault : Fault)
      (blank : ∀ character ∈ blanks, isBlank character = true)
      (refuses : Refused (position + encodedSize blanks) rest fault) :
      Step ⟨blanks ++ rest, position⟩ (.error fault) ⟨blanks ++ rest, position⟩
  | token (position : Nat) (blanks rest : List Char) (token : Token)
      (blank : ∀ character ∈ blanks, isBlank character = true) (spelled : token.Spelled)
      (stands : token.offset = position + encodedSize blanks) (ends : token.EndsBefore rest) :
      Step ⟨blanks ++ (token.span ++ rest), position⟩ (.ok token) ⟨rest, token.finish⟩

theorem step_next (scanner : Scanner) : Step scanner scanner.next.1 scanner.next.2 := by
  obtain ⟨rest, position⟩ := scanner
  obtain ⟨tokens, last, pieces⟩ := exists_pieces position rest
  cases pieces with
  | ended _ _ blank =>
      rw [next_of_blanks position blank]
      exact Step.ended position rest blank
  | refused _ blanks rest fault blank refuses =>
      rw [next_of_refused blank refuses]
      exact Step.refused position blanks rest fault blank refuses
  | token _ blanks rest token _ _ blank spelled stands ends _ =>
      rw [next_of_token blank spelled stands ends]
      exact Step.token position blanks rest token blank spelled stands ends

theorem In.position_add {scanner : Scanner} {line : String} (inside : scanner.In line) :
    scanner.position + encodedSize scanner.rest = line.utf8ByteSize := by
  obtain ⟨taken, split, place⟩ := inside
  rw [← encodedSize_toList, split, encodedSize_append, place]

theorem In.standsBehind {scanner : Scanner} {line : String} (inside : scanner.In line)
    {front rest : List Char} (parts : scanner.rest = front ++ rest) :
    StandsBehind line (scanner.position + encodedSize front) rest := by
  obtain ⟨taken, split, place⟩ := inside
  rw [place, ← encodedSize_append]
  apply standsBehind_append
  rw [split, parts, List.append_assoc]

theorem In.stands {scanner : Scanner} {line : String} (inside : scanner.In line) :
    ∃ blanks rest, scanner.rest = blanks ++ rest ∧
      (∀ character ∈ blanks, isBlank character = true) ∧
      answerPosition scanner.next.1 = scanner.position + encodedSize blanks ∧
      StandsBehind line (answerPosition scanner.next.1) rest := by
  have behind {front rest : List Char} (parts : scanner.rest = front ++ rest) :=
    inside.standsBehind parts
  have step := scanner.step_next
  generalize scanner.next.1 = answer, scanner.next.2 = after at step
  cases step with
  | ended position blanks blank =>
      have parts : blanks = blanks ++ [] := (List.append_nil blanks).symm
      exact ⟨blanks, [], parts, blank, rfl, behind parts⟩
  | refused position blanks rest fault blank refuses =>
      have stands : fault.position = position + encodedSize blanks := refuses.position_eq
      refine ⟨blanks, rest, rfl, blank, stands, ?_⟩
      rw [answerPosition, stands]
      exact behind rfl
  | token position blanks rest token blank spelled stands ends =>
      refine ⟨blanks, _, rfl, blank, stands, ?_⟩
      rw [answerPosition, stands]
      exact behind rfl

theorem position_of_token {scanner : Scanner} {token : Token}
    (answered : scanner.next.1 = .ok token) (ordinary : token.kind ≠ .inputEnd) :
    scanner.position ≤ token.offset ∧ token.offset < token.finish ∧
      scanner.next.2.position = token.finish := by
  have step := scanner.step_next
  generalize scanner.next.1 = answer, scanner.next.2 = after at step answered ⊢
  cases step with
  | ended position blanks blank =>
      cases answered
      exact absurd rfl ordinary
  | refused position blanks rest fault blank refuses => cases answered
  | token position blanks rest token blank spelled stands ends =>
      cases answered
      have bytes := encodedSize_pos spelled.span_ne_nil
      refine ⟨?_, ?_, rfl⟩
      · rw [stands]
        exact Nat.le_add_right _ _
      · rw [Token.finish]
        omega

theorem position_le_next (scanner : Scanner) : scanner.position ≤ scanner.next.2.position := by
  have step := scanner.step_next
  have ordinary {token : Token} (answered : scanner.next.1 = .ok token) :=
    position_of_token answered
  generalize scanner.next.1 = answer, scanner.next.2 = after at step ordinary ⊢
  cases step with
  | ended position blanks blank => exact Nat.le_add_right _ _
  | refused position blanks rest fault blank refuses => exact Nat.le_refl _
  | token position blanks rest token blank spelled stands ends =>
      obtain ⟨before, bytes, finish⟩ := ordinary rfl spelled.ne_inputEnd
      omega

/-! ### Asking again and again -/

def further (scanner : Scanner) : Nat → Scanner
  | 0 => scanner
  | count + 1 => scanner.next.2.further count

theorem further_of_next_eq {scanner : Scanner} {answer : Except Fault Token}
    (stays : scanner.next = (answer, scanner)) (count : Nat) :
    scanner.further count = scanner := by
  induction count with
  | zero => rfl
  | succ count ih =>
      change scanner.next.2.further count = scanner
      rw [stays]
      exact ih

def isOrdinary (answer : Except Fault Token) : Bool :=
  !isLastAnswer answer

theorem exists_token_of_isOrdinary {answer : Except Fault Token}
    (ordinary : isOrdinary answer = true) :
    ∃ token, answer = .ok token ∧ token.kind ≠ .inputEnd := by
  cases answer with
  | error fault => cases ordinary
  | ok token =>
      refine ⟨token, rfl, ?_⟩
      simpa [isOrdinary, isLastAnswer] using ordinary

/-- Every token takes a byte of the line that no other one takes. -/
theorem In.countP_le {scanner : Scanner} {line : String} (inside : scanner.In line)
    (count : Nat) :
    scanner.position + (scanner.stream.take count).countP isOrdinary ≤ line.utf8ByteSize := by
  induction count generalizing scanner with
  | zero =>
      have whole := inside.position_add
      rw [Stream'.take_zero, List.countP_nil]
      omega
  | succ count ih =>
      have others := ih inside.next
      have forward := scanner.position_le_next
      rw [stream_eq, Stream'.take_succ_cons, List.countP_cons]
      by_cases ordinary : isOrdinary scanner.next.1 = true
      · obtain ⟨token, answered, isToken⟩ := exists_token_of_isOrdinary ordinary
        obtain ⟨before, bytes, finish⟩ := position_of_token answered isToken
        rw [if_pos ordinary]
        omega
      · rw [if_neg ordinary]
        omega

/-- What holds of a scanner wherever it stands in a line, and of all it answers from there. -/
structure Sound (scanner : Scanner) (line : String) : Prop where
  bounded : scanner.position ≤ line.utf8ByteSize
  slice : StandsBehind line scanner.position scanner.rest
  answer : ∃ blanks rest, scanner.rest = blanks ++ rest ∧
    (∀ character ∈ blanks, isBlank character = true) ∧
    answerPosition scanner.next.1 = scanner.position + encodedSize blanks ∧
    StandsBehind line (answerPosition scanner.next.1) rest
  forward : scanner.position ≤ scanner.next.2.position
  token : ∀ token, scanner.next.1 = .ok token → token.kind ≠ .inputEnd →
    scanner.position ≤ token.offset ∧ token.offset < token.finish ∧
      scanner.next.2.position = token.finish
  fault : ∀ fault, scanner.next.1 = .error fault →
    (∃ rest, StandsBehind line fault.position rest ∧ Refused fault.position rest fault) ∧
      ∀ count, (scanner.further count).next = (.error fault, scanner)
  ended : ∀ token, scanner.next.1 = .ok token → token.kind = .inputEnd →
    ∀ count, (scanner.further count).next.1 = .ok (.inputEnd line.utf8ByteSize) ∧
      (scanner.further (count + 1)).position = line.utf8ByteSize
  numeral : ∀ first rest, scanner.skipBlanks.rest = first :: rest → first.isDigit = true →
    IsFloatText (Numeral.read (first :: rest)).1.chars
  few : ∀ count,
    scanner.position + (scanner.stream.take count).countP isOrdinary ≤ line.utf8ByteSize

theorem In.fault_repeats {scanner : Scanner} {line : String} {fault : Fault}
    (inside : scanner.In line) (answered : scanner.next.1 = .error fault) :
    (∃ rest, StandsBehind line fault.position rest ∧ Refused fault.position rest fault) ∧
      ∀ count, (scanner.further count).next = (.error fault, scanner) := by
  have stays : scanner.next = (.error fault, scanner) :=
    Prod.ext answered (next_of_fault scanner scanner.next.2 fault (Prod.ext answered rfl))
  constructor
  · have behind {front rest : List Char} (parts : scanner.rest = front ++ rest) :=
      inside.standsBehind parts
    have step := scanner.step_next
    generalize scanner.next.1 = answer, scanner.next.2 = after at step answered
    cases step with
    | ended position blanks blank => cases answered
    | refused position blanks rest other blank refuses =>
        cases answered
        have place : fault.position = position + encodedSize blanks := refuses.position_eq
        rw [place]
        exact ⟨rest, behind rfl, refuses⟩
    | token position blanks rest token blank spelled stands ends => cases answered
  · intro count
    rw [further_of_next_eq stays]
    exact stays

theorem In.inputEnd_repeats {scanner : Scanner} {line : String} {token : Token}
    (inside : scanner.In line) (answered : scanner.next.1 = .ok token)
    (ended : token.kind = .inputEnd) (count : Nat) :
    (scanner.further count).next.1 = .ok (.inputEnd line.utf8ByteSize) ∧
      (scanner.further (count + 1)).position = line.utf8ByteSize := by
  have step : scanner.next = (.ok token, scanner.next.2) := Prod.ext answered rfl
  obtain ⟨isEnd, stays⟩ := next_of_inputEnd scanner scanner.next.2 token step ended
  have place : scanner.next.2.position = line.utf8ByteSize := by
    have whole := inside.next.position_add
    rcases next_length scanner scanner.next.2 token step with ⟨_, nothing⟩ | ⟨other, _⟩
    · rw [nothing] at whole
      exact whole
    · exact absurd ended other
  have standing (count : Nat) : scanner.further (count + 1) = scanner.next.2 :=
    further_of_next_eq stays count
  rw [place] at isEnd
  constructor
  · cases count with
    | zero => rw [← isEnd]; exact answered
    | succ count => rw [standing, stays, isEnd]
  · rw [standing, place]

theorem In.sound {scanner : Scanner} {line : String} (inside : scanner.In line) :
    scanner.Sound line where
  bounded := by
    have whole := inside.position_add
    omega
  slice := inside.standsBehind (List.nil_append scanner.rest).symm
  answer := inside.stands
  forward := scanner.position_le_next
  token _ := position_of_token
  fault _ := inside.fault_repeats
  ended _ := inside.inputEnd_repeats
  numeral _ rest _ digit := (Numeral.wellFormed_read digit rest).isFloatText
  few := inside.countP_le

end Scanner

/-! ### Any sequence of uses -/

inductive Use where
  | line (text : String)
  | next

/-- A scanner, and the line that it has got last. -/
structure Reader where
  line : String
  scanner : Scanner

namespace Reader

def fresh : Reader :=
  ⟨"", .empty⟩

def afterUse (reader : Reader) : Use → Reader
  | .line text => ⟨text, .ofLine text⟩
  | .next => { reader with scanner := reader.scanner.next.2 }

theorem in_afterUse {reader : Reader} (inside : reader.scanner.In reader.line) (use : Use) :
    (reader.afterUse use).scanner.In (reader.afterUse use).line := by
  cases use with
  | line text => exact Scanner.in_ofLine text
  | next => exact inside.next

/-- However a scanner was used, it is sound in the line that it has got last. -/
theorem sound_after_uses (uses : List Use) :
    (uses.foldl afterUse fresh).scanner.Sound (uses.foldl afterUse fresh).line := by
  have inside : ∀ reader : Reader, reader.scanner.In reader.line →
      (uses.foldl afterUse reader).scanner.In (uses.foldl afterUse reader).line := by
    induction uses with
    | nil => exact fun _ inside => inside
    | cons use uses ih => exact fun reader inside => ih _ (in_afterUse inside use)
  exact (inside fresh (Scanner.in_ofLine "")).sound

end Reader
end Abacus
