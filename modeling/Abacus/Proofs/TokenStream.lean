/-
What is still to come: the answers of a scanner and of an evaluator.

A scanner can be asked without end, so its answers are a stream: tokens, and then for ever
the end of the input or the same lexical fault.  The answers of a line are the part up to the
first one that repeats.  An evaluator takes its tokens from the front of such a stream, and
putting one back restores the stream.
-/

import Mathlib.Data.Stream.Init
import Abacus.Evaluator

namespace Abacus

abbrev TokenStream : Type :=
  Stream' (Except Fault Token)

/-- Whether a scanner has nothing else to answer from here on. -/
def isLastAnswer : Except Fault Token → Bool
  | .ok token => decide (token.kind = .inputEnd)
  | .error _ => true

/-- The answers of a line say which of them is the last one. -/
theorem tokens_last_inj {tokens others : List Token} {last ending : Except Fault Token}
    (same : tokens.map .ok ++ [last] = others.map .ok ++ [ending]) :
    tokens = others ∧ last = ending := by
  obtain ⟨front, final⟩ := List.append_inj' same rfl
  exact ⟨(List.map_inj_right (fun _ _ => Except.ok.inj)).mp front, (List.cons.inj final).1⟩

/-- Where one text of tokens goes further along a stream than another, it goes on
with the token that follows the shorter one. -/
theorem TokenStream.exists_append_of_length_lt (short long : List Token)
    (restShort restLong : TokenStream) (less : short.length < long.length)
    (same : short.map .ok ++ₛ restShort = long.map .ok ++ₛ restLong) :
    ∃ next more, long = short ++ next :: more ∧ restShort.head = .ok next := by
  induction short generalizing long with
  | nil =>
      cases long with
      | nil => cases less
      | cons next more =>
          refine ⟨next, more, rfl, ?_⟩
          change restShort = _ at same
          rw [same]
          rfl
  | cons token short ih =>
      cases long with
      | nil => cases less
      | cons token' long =>
          obtain ⟨first, others⟩ := Stream'.cons_injective2 same
          cases first
          obtain ⟨next, more, rfl, isNext⟩ := ih long (Nat.lt_of_succ_lt_succ less) others
          exact ⟨next, more, rfl, isNext⟩

namespace Scanner

def stream (scanner : Scanner) : TokenStream :=
  Stream'.corec (fun current => current.next.1) (fun current => current.next.2) scanner

theorem stream_eq (scanner : Scanner) :
    scanner.stream = .cons scanner.next.1 scanner.next.2.stream :=
  Stream'.corec_eq _ _ _

private theorem length_next_lt (scanner : Scanner)
    (goesOn : ¬ isLastAnswer scanner.next.1 = true) :
    scanner.next.2.rest.length < scanner.rest.length := by
  cases answer : scanner.next.1 with
  | error fault =>
      rw [answer] at goesOn
      exact absurd rfl goesOn
  | ok token =>
      rw [answer, isLastAnswer, decide_eq_true_eq] at goesOn
      rcases next_length scanner scanner.next.2 token (by rw [← answer]) with
        ⟨ended, _⟩ | ⟨_, less⟩
      · exact absurd ended goesOn
      · exact less

def answers (scanner : Scanner) : List (Except Fault Token) :=
  if isLastAnswer scanner.next.1 then [scanner.next.1]
  else scanner.next.1 :: scanner.next.2.answers
termination_by scanner.rest.length
decreasing_by exact length_next_lt scanner ‹_›

theorem answers_of_last (scanner : Scanner) (last : isLastAnswer scanner.next.1 = true) :
    scanner.answers = [scanner.next.1] := by
  rw [answers, if_pos last]

theorem answers_of_not_last (scanner : Scanner)
    (goesOn : isLastAnswer scanner.next.1 = false) :
    scanner.answers = scanner.next.1 :: scanner.next.2.answers := by
  rw [answers, if_neg (by rw [goesOn]; exact Bool.false_ne_true)]

/-! ### The answers that repeat -/

private theorem eq_const_of_eq_cons (stream : TokenStream) (answer : Except Fault Token)
    (repeats : stream = .cons answer stream) : stream = .const answer := by
  apply Stream'.ext
  intro place
  induction place with
  | zero =>
      rw [repeats]
      rfl
  | succ place ih =>
      rw [repeats, Stream'.get_succ_cons, ih]
      rfl

private theorem take_of_fault (scanner : Scanner) (fault : Fault)
    (taken : scanner.take = .error fault) :
    ∃ detail position, fault = .lexical detail position := by
  unfold take at taken
  split at taken
  · cases taken
  · split at taken
    · unfold takeNumeral at taken
      simp only at taken
      split at taken
      · cases taken
      · cases taken
        exact ⟨_, _, rfl⟩
    · unfold takeSingle at taken
      split at taken
      · cases taken
      · cases taken
        exact ⟨_, _, rfl⟩

theorem next_fault_lexical (scanner after : Scanner) (fault : Fault)
    (answered : scanner.next = (.error fault, after)) :
    ∃ detail position, fault = .lexical detail position := by
  unfold next at answered
  split at answered
  · cases answered
  · next found taken =>
      cases answered
      exact take_of_fault _ _ taken

private theorem next_of_rest_eq_nil (scanner : Scanner) (nothing : scanner.rest = []) :
    scanner.next = (.ok (.inputEnd scanner.position), scanner) := by
  obtain ⟨rest, position⟩ := scanner
  cases nothing
  rfl

theorem next_of_inputEnd (scanner after : Scanner) (token : Token)
    (answered : scanner.next = (.ok token, after)) (ended : token.kind = .inputEnd) :
    token = .inputEnd after.position ∧ after.next = (.ok token, after) := by
  unfold next at answered
  split at answered
  · next found left taken =>
      cases answered
      rcases take_length _ _ _ taken with ⟨_, nothing, same⟩ | ⟨other, _⟩
      · rw [← same] at nothing taken
        have isEnd : token = .inputEnd after.position := by
          unfold take at taken
          rw [nothing] at taken
          cases taken
          rfl
        refine ⟨isEnd, ?_⟩
        rw [next_of_rest_eq_nil after nothing, isEnd]
      · exact absurd ended other
  · cases answered

/-- After a fault nothing but that fault is answered, and the fault is lexical. -/
theorem stream_of_fault (scanner : Scanner) (front : List (Except Fault Token))
    (fault : Fault) (more : TokenStream)
    (stream : scanner.stream = front ++ₛ .cons (.error fault) more) :
    (∃ detail position, fault = .lexical detail position) ∧ more = .const (.error fault) := by
  induction front generalizing scanner with
  | nil =>
      have repeats := stream_eq scanner
      obtain ⟨answer, tail⟩ := Stream'.cons_injective2 (repeats.symm.trans stream)
      have same := next_of_fault scanner scanner.next.2 fault (by rw [← answer])
      rw [answer, same] at repeats
      rw [same, eq_const_of_eq_cons _ _ repeats] at tail
      exact ⟨next_fault_lexical scanner scanner.next.2 fault (by rw [← answer]), tail.symm⟩
  | cons answer front ih =>
      rw [stream_eq] at stream
      exact ih scanner.next.2 (Stream'.cons_injective2 stream).2

/-- The answers of a line are tokens and one last answer, which is the end of the
input or a lexical fault; in the stream the last answer repeats for ever. -/
theorem exists_answers_eq (scanner : Scanner) :
    ∃ (tokens : List Token) (last : Except Fault Token),
      scanner.answers = tokens.map .ok ++ [last] ∧
      scanner.stream = tokens.map .ok ++ₛ .const last ∧
      (∀ token ∈ tokens, token.kind ≠ .inputEnd) ∧
      ((∃ offset, last = .ok (.inputEnd offset)) ∨
        ∃ detail position, last = .error (.lexical detail position)) := by
  cases answer : scanner.next.1 with
  | error fault =>
      have stream := stream_eq scanner
      rw [answer] at stream
      obtain ⟨lexical, repeats⟩ := stream_of_fault scanner [] fault _ stream
      refine ⟨[], .error fault, ?_, ?_, ?_, ?_⟩
      · rw [answers_of_last scanner (by rw [answer]; rfl), answer]
        rfl
      · rw [stream, repeats]
        exact (Stream'.const_eq _).symm
      · intro token member
        cases member
      · obtain ⟨detail, position, rfl⟩ := lexical
        exact Or.inr ⟨detail, position, rfl⟩
  | ok token =>
      by_cases ended : token.kind = .inputEnd
      · obtain ⟨isEnd, stays⟩ := next_of_inputEnd scanner scanner.next.2 token
          (by rw [← answer]) ended
        have repeats := stream_eq scanner.next.2
        rw [stays] at repeats
        refine ⟨[], .ok token, ?_, ?_, ?_, Or.inl ⟨_, congrArg Except.ok isEnd⟩⟩
        · rw [answers_of_last scanner (by rw [answer]; exact decide_eq_true ended), answer]
          rfl
        · rw [stream_eq, answer, eq_const_of_eq_cons _ _ repeats]
          exact (Stream'.const_eq _).symm
        · intro other member
          cases member
      · have goesOn : isLastAnswer scanner.next.1 = false := by
          rw [answer]
          exact decide_eq_false ended
        have less := length_next_lt scanner (by rw [goesOn]; exact Bool.false_ne_true)
        obtain ⟨tokens, last, finite, infinite, ordinary, isLast⟩ :=
          exists_answers_eq scanner.next.2
        refine ⟨token :: tokens, last, ?_, ?_, ?_, isLast⟩
        · rw [answers_of_not_last scanner goesOn, answer, finite]
          rfl
        · rw [stream_eq, answer, infinite]
          rfl
        · intro other member
          rcases List.mem_cons.mp member with rfl | later
          · exact ended
          · exact ordinary other later
termination_by scanner.rest.length

theorem stream_of_answers {scanner : Scanner} {tokens : List Token} {last : Except Fault Token}
    (answers : scanner.answers = tokens.map .ok ++ [last]) :
    scanner.stream = tokens.map .ok ++ₛ .const last := by
  obtain ⟨others, ending, finite, infinite, _⟩ := scanner.exists_answers_eq
  rw [finite] at answers
  obtain ⟨rfl, rfl⟩ := tokens_last_inj answers
  exact infinite

end Scanner

namespace Evaluator

/-- What the evaluator gives out when it is asked again and again. -/
def stream (evaluator : Evaluator) : TokenStream :=
  match evaluator.pending with
  | some token => .cons (.ok token) evaluator.scanner.stream
  | none => evaluator.scanner.stream

theorem stream_of_pending (evaluator : Evaluator) (token : Token)
    (held : evaluator.pending = some token) :
    evaluator.stream = .cons (.ok token) evaluator.scanner.stream := by
  simp only [stream, held]

theorem stream_of_no_pending (evaluator : Evaluator) (nothing : evaluator.pending = none) :
    evaluator.stream = evaluator.scanner.stream := by
  simp only [stream, nothing]

theorem pending_next (evaluator : Evaluator) : evaluator.next.2.pending = none := by
  unfold next
  split
  · rfl
  · assumption

theorem stream_next (evaluator : Evaluator) :
    evaluator.stream = .cons evaluator.next.1 evaluator.next.2.stream := by
  rw [stream_of_no_pending evaluator.next.2 (pending_next evaluator)]
  cases held : evaluator.pending with
  | some token =>
      rw [stream_of_pending evaluator token held]
      simp only [next, held]
  | none =>
      rw [stream_of_no_pending evaluator held, Scanner.stream_eq]
      simp only [next, held, Journal.scan]

theorem stream_putBack (evaluator : Evaluator) (token : Token)
    (nothing : evaluator.pending = none) :
    (evaluator.putBack token).stream = .cons (.ok token) evaluator.stream := by
  rw [stream_of_no_pending evaluator nothing]
  rfl

theorem stream_of_fault (evaluator : Evaluator) (front : List (Except Fault Token))
    (fault : Fault) (more : TokenStream)
    (stream : evaluator.stream = front ++ₛ .cons (.error fault) more) :
    (∃ detail position, fault = .lexical detail position) ∧ more = .const (.error fault) := by
  cases held : evaluator.pending with
  | none =>
      rw [stream_of_no_pending evaluator held] at stream
      exact evaluator.scanner.stream_of_fault front fault more stream
  | some token =>
      rw [stream_of_pending evaluator token held] at stream
      cases front with
      | nil => cases (Stream'.cons_injective2 stream).1
      | cons answer front =>
          exact evaluator.scanner.stream_of_fault front fault more
            (Stream'.cons_injective2 stream).2

end Evaluator
end Abacus
