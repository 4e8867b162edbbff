/-
The message of a fault tells which fault it is.

Its parts are a heading, a position and perhaps a body behind a colon.  The body alone does
not say whether the fault is lexical, but no lexical fault of a line has a detail that begins
with the heading of an unexpected token: where it could, the word `character` follows.
-/

import Abacus.Proofs.Decomposition
import Abacus.Proofs.EarliestFault

namespace Abacus

/-! ### The faults of lines -/

inductive Fault.Reported : Fault → Prop where
  | refused (position : Nat) (rest : List Char) (fault : Fault)
      (refuses : Refused position rest fault) : Reported fault
  | misplaced (token : Token) : Reported (.misplaced token)
  | unclosed (position : Nat) : Reported (.unclosed position)

theorem exists_blamed_answer {line : String} {fault : Fault}
    (rejected : evaluate line = .error fault) :
    ∃ answer ∈ (Scanner.ofLine line).answers, fault.BlamedOn answer := by
  obtain ⟨tokens, answer, rest, last, split, walked, stops⟩ := exists_walk_of_rejected rejected
  refine ⟨answer, ?_, ?_⟩
  · rw [split]
    exact List.mem_append_right _ List.mem_cons_self
  · cases answer with
    | error scanned =>
        cases stops
        rfl
    | ok token => exact Automaton.blamedOn_of_stops stops

theorem refused_of_mem_answers {line : String} {fault : Fault}
    (member : .error fault ∈ (Scanner.ofLine line).answers) :
    ∃ front back, line.toList = front ++ back ∧ Refused (encodedSize front) back fault := by
  obtain ⟨tokens, last, pieces⟩ := exists_pieces 0 line.toList
  have answers : (Scanner.ofLine line).answers = tokens.map .ok ++ [last] :=
    Scanner.answers_of_pieces pieces
  have ends := ((decomposition_iff_pieces _ _ _).mpr pieces).ends
  rw [answers, List.mem_append, List.mem_singleton] at member
  rcases member with inside | rfl
  · obtain ⟨token, _, isToken⟩ := List.mem_map.mp inside
    cases isToken
  · exact ends

theorem reported_of_evaluate {line : String} {fault : Fault}
    (rejected : evaluate line = .error fault) : fault.Reported := by
  obtain ⟨answer, member, blamed⟩ := exists_blamed_answer rejected
  cases answer with
  | error scanned =>
      cases blamed
      obtain ⟨front, back, _, refuses⟩ := refused_of_mem_answers member
      exact .refused (encodedSize front) back fault refuses
  | ok token =>
      rcases blamed with rfl | rfl
      · exact .misplaced token
      · exact .unclosed token.offset

/-! ### The parts of a message -/

/-- A number is known where no digit follows it. -/
theorem toDigits_append_inj {number other : Nat} {rest rest' : List Char}
    (stop : ∀ next ∈ rest.head?, next.isDigit = false)
    (stop' : ∀ next ∈ rest'.head?, next.isDigit = false)
    (same : Nat.toDigits 10 number ++ rest = Nat.toDigits 10 other ++ rest') :
    number = other ∧ rest = rest' := by
  have digits (number : Nat) : ∀ digit ∈ Nat.toDigits 10 number, digit.isDigit = true :=
    fun digit member => Nat.isDigit_of_mem_toDigits (by decide) (by decide) member
  obtain ⟨front, back⟩ := append_inj_of_stop (digits number) stop (digits other) stop' same
  have value := congrArg (fun chars => Nat.ofDigitChars 10 chars 0) front
  simp only [Nat.ofDigitChars_ten_toDigits] at value
  exact ⟨value, back⟩

namespace Fault

def body? : Fault → Option String
  | lexical detail _ => some detail
  | unexpected found _ => some ("unexpected " ++ found)
  | unclosed _ => none

theorem toList_message_of_some {fault : Fault} {body : String}
    (isBody : fault.body? = some body) :
    fault.message.toList = "syntax error at offset ".toList ++
      (Nat.toDigits 10 fault.position ++ (": ".toList ++ body.toList)) := by
  cases fault with
  | lexical detail position =>
      cases isBody
      change ("syntax error at offset " ++ toString position ++ ": " ++ body).toList =
        _ ++ (Nat.toDigits 10 position ++ _)
      rw [String.toList_append, String.toList_append, String.toList_append, List.append_assoc,
        List.append_assoc, Nat.toString_eq_repr, Nat.toList_repr]
  | unexpected found position =>
      cases isBody
      have heading : ": unexpected ".toList = ": ".toList ++ "unexpected ".toList := rfl
      change ("syntax error at offset " ++ toString position ++ ": unexpected " ++ found).toList =
        _ ++ (Nat.toDigits 10 position ++ _)
      rw [String.toList_append, String.toList_append, String.toList_append, String.toList_append,
        List.append_assoc, List.append_assoc, Nat.toString_eq_repr, Nat.toList_repr, heading,
        List.append_assoc]
  | unclosed position => cases isBody

theorem toList_message_of_none {fault : Fault} (noBody : fault.body? = none) :
    fault.message.toList = "missing ')' at offset ".toList ++ Nat.toDigits 10 fault.position := by
  cases fault with
  | lexical detail position => cases noBody
  | unexpected found position => cases noBody
  | unclosed position =>
      change ("missing ')' at offset " ++ toString position).toList = _ ++ Nat.toDigits 10 position
      rw [String.toList_append, Nat.toString_eq_repr, Nat.toList_repr]

/-- Whatever the fault is, its message tells its position and its body. -/
theorem parts_of_message {fault other : Fault} (same : fault.message = other.message) :
    fault.position = other.position ∧ fault.body? = other.body? := by
  have shown := congrArg String.toList same
  have colon (body : String) :
      ∀ next ∈ (": ".toList ++ body.toList).head?, next.isDigit = false := by
    intro next first
    cases first
    rfl
  have nothing : ∀ next ∈ ([] : List Char).head?, next.isDigit = false := by
    intro next absent
    cases absent
  cases body : fault.body? with
  | some text =>
      cases body' : other.body? with
      | some text' =>
          rw [toList_message_of_some body, toList_message_of_some body'] at shown
          obtain ⟨place, behind⟩ := toDigits_append_inj (colon text) (colon text')
            (List.append_cancel_left shown)
          exact ⟨place, congrArg some (String.toList_inj.mp (List.append_cancel_left behind))⟩
      | none =>
          rw [toList_message_of_some body, toList_message_of_none body'] at shown
          cases (List.cons.inj shown).1
  | none =>
      cases body' : other.body? with
      | some text =>
          rw [toList_message_of_none body, toList_message_of_some body'] at shown
          cases (List.cons.inj shown).1
      | none =>
          rw [toList_message_of_none body, toList_message_of_none body'] at shown
          have digits := List.append_cancel_left shown
          rw [← List.append_nil (Nat.toDigits 10 fault.position),
            ← List.append_nil (Nat.toDigits 10 other.position)] at digits
          exact ⟨(toDigits_append_inj nothing nothing digits).1, rfl⟩

/-! ### Details and descriptions -/

/-- A description begins with a quotation mark or with the word `end`. -/
theorem describe_ne_character (token : Token) (rest : List Char) :
    token.describe.toList ≠ 'c' :: rest := by
  intro same
  unfold Token.describe at same
  split at same
  · cases (List.cons.inj same).1
  · cases (List.cons.inj same).1
  · rw [String.toList_append, String.toList_append, List.append_assoc] at same
    cases (List.cons.inj same).1

/-- No text that is refused is complained about as a token is. -/
theorem detail_ne_describe {position place : Nat} {rest : List Char} {detail : String}
    (refused : Refused position rest (.lexical detail place)) (token : Token) :
    detail ≠ "unexpected " ++ token.describe := by
  intro same
  have letters := congrArg String.toList same
  rw [String.toList_append] at letters
  cases refused with
  | stray character rest notBlank noToken =>
      have heading : "unexpected character '".toList =
          "unexpected ".toList ++ "character '".toList := rfl
      rw [String.toList_append, String.toList_append, heading, List.append_assoc,
        List.append_assoc] at letters
      exact describe_ne_character token _ (List.append_cancel_left letters).symm
  | outOfRange numeral rest wellFormed longest infinite =>
      rw [String.toList_append, String.toList_append, List.append_assoc] at letters
      cases (List.cons.inj letters).1

theorem Reported.detail_ne {detail found : String} {place place' : Nat}
    (reported : (lexical detail place).Reported) (reported' : (unexpected found place').Reported) :
    detail ≠ "unexpected " ++ found := by
  cases reported' with
  | refused position rest fault refuses => cases refuses
  | misplaced token =>
      cases reported with
      | refused position rest fault refuses => exact detail_ne_describe refuses token

theorem Reported.eq_of_message {fault other : Fault} (reported : fault.Reported)
    (reported' : other.Reported) (same : fault.message = other.message) : fault = other := by
  obtain ⟨place, body⟩ := parts_of_message same
  cases fault with
  | lexical detail position =>
      cases other with
      | lexical detail' position' =>
          cases place
          cases body
          rfl
      | unexpected found' position' =>
          exact absurd (Option.some.inj body) (reported.detail_ne reported')
      | unclosed position' => cases body
  | unexpected found position =>
      cases other with
      | lexical detail' position' =>
          exact absurd (Option.some.inj body).symm (reported'.detail_ne reported)
      | unexpected found' position' =>
          cases place
          cases (String.append_right_inj _).mp (Option.some.inj body)
          rfl
      | unclosed position' => cases body
  | unclosed position =>
      cases other with
      | lexical detail' position' => cases body
      | unexpected found' position' => cases body
      | unclosed position' =>
          cases place
          rfl

end Fault

/-- Faults of lines are the same if their messages are, also where the lines are not.  The
message of a lexical fault is that of no misplaced token at all. -/
theorem message_eq_iff_fault_eq {line other : String} {fault found : Fault}
    (rejected : evaluate line = .error fault) (rejectedOther : evaluate other = .error found) :
    (fault.message = found.message ↔ fault = found) ∧
      ∀ detail position, fault = .lexical detail position →
        ∀ token, fault.message ≠ (Fault.misplaced token).message := by
  have reported := reported_of_evaluate rejected
  refine ⟨⟨reported.eq_of_message (reported_of_evaluate rejectedOther), congrArg Fault.message⟩,
    ?_⟩
  rintro detail position rfl token same
  cases reported.eq_of_message (.misplaced token) same

/-- The character and the token stand at the same place, and both are unexpected. -/
theorem message_ne_of_character :
    evaluate "1 $" = .error (.lexical "unexpected character '$'" 2) ∧
      evaluate "1 2" = .error (.unexpected "'2'" 2) ∧
      (Fault.lexical "unexpected character '$'" 2).message ≠
        (Fault.unexpected "'2'" 2).message := by
  have rejected : evaluate "1 $" = .error (.lexical "unexpected character '$'" 2) := by
    decide +kernel
  have rejectedOther : evaluate "1 2" = .error (.unexpected "'2'" 2) := by decide +kernel
  refine ⟨rejected, rejectedOther, ?_⟩
  rw [Ne, (message_eq_iff_fault_eq rejected rejectedOther).1]
  exact Fault.noConfusion

/-- Faults that no line has can share their message. -/
example : (Fault.lexical "unexpected '2'" 2).message = (Fault.unexpected "'2'" 2).message := by
  decide

end Abacus
