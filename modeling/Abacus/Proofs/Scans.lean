/-
What is scanned for a reading.

What an evaluator has given out between two states is known from its scans between them and
from the tokens that were pending at either end.  A reading scans up to the first answer that
it does not go on with and no further, however often a token was put back on the way.
-/

import Abacus.Proofs.Conservation

namespace Abacus

/-! ### Answers in a row -/

inductive Scanner.Gives : Scanner → List (Except Fault Token) → Scanner → Prop where
  | done (scanner : Scanner) : Gives scanner [] scanner
  | more (scanner after : Scanner) (answers : List (Except Fault Token))
      (rest : Gives scanner.next.2 answers after) :
      Gives scanner (scanner.next.1 :: answers) after

namespace Scanner

theorem Gives.append {scanner inside after : Scanner} {front back : List (Except Fault Token)}
    (first : scanner.Gives front inside) (rest : inside.Gives back after) :
    scanner.Gives (front ++ back) after := by
  induction first with
  | done scanner => exact rest
  | more scanner inside answers _ ih => exact Gives.more scanner after _ (ih rest)

/-- Answers in a row are the first answers of the line, as long as the input has not ended. -/
theorem Gives.exists_answers_eq {scanner after : Scanner} {tokens : List Token}
    {last : Except Fault Token} (gives : scanner.Gives (tokens.map .ok ++ [last]) after)
    (ordinary : ∀ token ∈ tokens, token.kind ≠ .inputEnd) :
    ∃ rest, scanner.answers = tokens.map .ok ++ last :: rest ∧
      (isLastAnswer last = true → rest = []) := by
  induction tokens generalizing scanner with
  | nil =>
      cases gives with
      | more _ _ _ _ =>
          cases final : isLastAnswer scanner.next.1 with
          | true => exact ⟨[], answers_of_last scanner final, fun _ => rfl⟩
          | false => exact ⟨_, answers_of_not_last scanner final, fun absent => nomatch absent⟩
  | cons token tokens ih =>
      generalize whole : (token :: tokens).map Except.ok ++ [last] = answers at gives
      cases gives with
      | done _ => cases whole
      | more _ _ answers more =>
          obtain ⟨isNext, rfl⟩ := List.cons.inj whole
          obtain ⟨rest, follows, ends⟩ :=
            ih more (fun other member => ordinary other (List.mem_cons_of_mem token member))
          have goesOn : isLastAnswer scanner.next.1 = false := by
            rw [← isNext]
            exact decide_eq_false (ordinary token List.mem_cons_self)
          refine ⟨rest, ?_, ends⟩
          rw [answers_of_not_last scanner goesOn, follows, ← isNext]
          rfl

end Scanner

/-! ### What an evaluator gives out -/

namespace Evaluator

def held (evaluator : Evaluator) : List (Except Fault Token) :=
  evaluator.pending.toList.map .ok

theorem held_of_no_pending {evaluator : Evaluator} (nothing : evaluator.pending = none) :
    evaluator.held = [] := by
  rw [held, nothing]
  rfl

/-- The evaluator has given out these answers between the two states.  First came what was
pending, then what was scanned, and what is pending now has not been given out. -/
def GaveOut (before : Evaluator) (given : List (Except Fault Token)) (after : Evaluator) : Prop :=
  ∃ scans, before.held ++ scans = given ++ after.held ∧
    before.scanner.Gives scans after.scanner ∧
    after.journal.toList = before.journal.toList ++ scans.map .scanned

theorem GaveOut.append {before inside after : Evaluator} {front back : List (Except Fault Token)}
    (first : before.GaveOut front inside) (rest : inside.GaveOut back after) :
    before.GaveOut (front ++ back) after := by
  obtain ⟨scansFirst, heldFirst, givesFirst, notedFirst⟩ := first
  obtain ⟨scansRest, heldRest, givesRest, notedRest⟩ := rest
  refine ⟨scansFirst ++ scansRest, ?_, givesFirst.append givesRest, ?_⟩
  · rw [← List.append_assoc, heldFirst, List.append_assoc, heldRest, List.append_assoc]
  · rw [notedRest, notedFirst, List.map_append, List.append_assoc]

theorem gaveOut_next {before after : Evaluator} {answer : Except Fault Token}
    (answered : before.next = (answer, after)) : before.GaveOut [answer] after := by
  unfold next at answered
  cases pending : before.pending with
  | some token =>
      simp only [pending] at answered
      cases answered
      refine ⟨[], ?_, Scanner.Gives.done before.scanner, by simp⟩
      simp [held, pending]
  | none =>
      simp only [pending, Journal.scan] at answered
      cases answered
      refine ⟨[before.scanner.next.1], ?_, Scanner.Gives.more _ _ [] (Scanner.Gives.done _), ?_⟩
      · simp [held, pending]
      · simp

theorem gaveOut_putBack {before after : Evaluator} {token : Token}
    (answered : before.next = (.ok token, after)) :
    before.GaveOut [] (after.putBack token) := by
  have nothing := pending_next before
  rw [answered] at nothing
  obtain ⟨scans, heldBoth, gives, noted⟩ := gaveOut_next answered
  refine ⟨scans, ?_, gives, noted⟩
  rw [heldBoth, held, nothing]
  rfl

/-! ### What a reading takes -/

def Inside (tokens : List Token) : Prop :=
  ∀ token ∈ tokens, token.isTerminator = false

theorem Inside.ne_inputEnd {tokens : List Token} (inside : Inside tokens) :
    ∀ token ∈ tokens, token.kind ≠ .inputEnd := by
  intro token member isEnd
  have ends := (Token.isTerminator_iff token).mpr (Or.inr isEnd)
  rw [inside token member] at ends
  cases ends

/-- A reading that fails takes tokens up to the answer that it complains about. -/
def TookUpTo (before after : Evaluator) : Except Fault Binary64 → Prop
  | .ok _ => ∃ tokens, Inside tokens ∧ before.GaveOut (tokens.map .ok) after
  | .error fault => ∃ tokens last, Inside tokens ∧ fault.BlamedOn last ∧
      before.GaveOut (tokens.map .ok ++ [last]) after

theorem TookUpTo.behind {before inside after : Evaluator} {tokens : List Token}
    {answer : Except Fault Binary64} (insides : Inside tokens)
    (first : before.GaveOut (tokens.map .ok) inside) (rest : inside.TookUpTo after answer) :
    before.TookUpTo after answer := by
  have both {others : List Token} (ordinary : Inside others) : Inside (tokens ++ others) := by
    intro token member
    rcases List.mem_append.mp member with front | back
    · exact insides token front
    · exact ordinary token back
  cases answer with
  | ok value =>
      obtain ⟨others, ordinary, gave⟩ := rest
      refine ⟨tokens ++ others, both ordinary, ?_⟩
      rw [List.map_append]
      exact first.append gave
  | error fault =>
      obtain ⟨others, last, ordinary, blamed, gave⟩ := rest
      refine ⟨tokens ++ others, last, both ordinary, blamed, ?_⟩
      rw [List.map_append, List.append_assoc]
      exact first.append gave

theorem TookUpTo.behind_token {before inside after : Evaluator} {token : Token} {kind : Kind}
    {answer : Except Fault Binary64} (answered : before.next = (.ok token, inside))
    (is : token.kind = kind) (goesOn : kind.isTerminator = false)
    (rest : inside.TookUpTo after answer) : before.TookUpTo after answer := by
  have inside : Inside [token] := by
    intro other member
    rw [List.mem_singleton.mp member, Token.isTerminator, is]
    exact goesOn
  exact rest.behind inside (gaveOut_next answered)

theorem tookUpTo_fault {before after : Evaluator} {last : Except Fault Token} {fault : Fault}
    (answered : before.next = (last, after)) (blamed : fault.BlamedOn last) :
    before.TookUpTo after (.error fault) :=
  ⟨[], last, List.forall_mem_nil _, blamed, gaveOut_next answered⟩

theorem TookUpTo.andThen {before inside after : Evaluator} {value : Binary64}
    {answer : Except Fault Binary64} (first : before.TookUpTo inside (.ok value))
    (rest : inside.TookUpTo after answer) : before.TookUpTo after answer := by
  obtain ⟨tokens, ordinary, gave⟩ := first
  exact rest.behind ordinary gave

/-- A closing parenthesis is taken, and so is what stands where one has to be. -/
private theorem tookUpTo_token {before after : Evaluator} {token : Token} {kind : Kind}
    {value : Binary64} (answered : before.next = (.ok token, after)) (is : token.kind = kind)
    (goesOn : kind.isTerminator = false) : before.TookUpTo after (.ok value) := by
  have nothing : after.TookUpTo after (.ok value) :=
    ⟨[], List.forall_mem_nil _, [], by simp, Scanner.Gives.done _, by simp⟩
  exact nothing.behind_token answered is goesOn

theorem tookUpTo_of_reads {task : Task} {before after : Evaluator}
    {answer : Except Fault Binary64} (reads : Reads source task before answer after) :
    before.TookUpTo after answer := by
  induction reads with
  | fault task before after found takes answered => exact tookUpTo_fault answered rfl
  | number before after token value answered isNumber =>
      exact tookUpTo_token answered isNumber rfl
  | misplaced before after token answered notNumber notOpening =>
      exact tookUpTo_fault answered (Or.inl rfl)
  | insideFault before inside after opening found answered opens _ ih =>
      exact ih.behind_token answered opens rfl
  | closingFault before inside behind after opening value found answered opens _ closed ih =>
      exact (ih.andThen (tookUpTo_fault closed rfl)).behind_token answered opens rfl
  | group before inside behind after opening closing value answered opens _ closed closes ih =>
      exact (ih.andThen (tookUpTo_token closed closes rfl)).behind_token answered opens rfl
  | unclosed before inside behind after opening closing value answered opens _ closed other ih =>
      exact (ih.andThen (tookUpTo_fault closed (Or.inr rfl))).behind_token answered opens rfl
  | negated before inside after minus answer answered negates _ ih =>
      have took := ih.behind_token answered negates rfl
      cases answer with
      | error fault => exact took
      | ok value => exact took
  | plain before inside after token answer answered notMinus _ ih =>
      exact ih.behind (List.forall_mem_nil _) (gaveOut_putBack answered)
  | chainFault level before after found _ ih => exact ih
  | chain level before inside after value answer _ _ ihFirst ihMore => exact ihFirst.andThen ihMore
  | stop level value before after token answered stops =>
      exact ⟨[], List.forall_mem_nil _, gaveOut_putBack answered⟩
  | partFault level value before inside after joint operator found answered joins _ ih =>
      have isOperator := ((Kind.joint?_eq_some_iff level joint.kind operator).mp joins).1
      exact ih.behind_token answered isOperator rfl
  | joined level value right before inside behind after joint operator answer answered joins
      _ _ ihRead ihMore =>
      have isOperator := ((Kind.joint?_eq_some_iff level joint.kind operator).mp joins).1
      exact (ihRead.andThen ihMore).behind_token answered isOperator rfl

/-! ### Where an expression stops -/

/-- Behind a value the answer at which the reading stopped is pending, and a fault is what is
said of it. -/
def StoppedAt (after : Evaluator) (last : Except Fault Token) : Except Fault Binary64 → Prop
  | .ok _ => ∃ token, last = .ok token ∧ after.pending = some token
  | .error fault => fault.BlamedOn last

/-- Where no token is pending, exactly what is scanned for an expression is the tokens that it
takes and the answer at which it stops. -/
theorem exists_scans_of_expression {evaluator : Evaluator} (nothing : evaluator.pending = none) :
    ∃ (tokens : List Token) (last : Except Fault Token), Inside tokens ∧
      StoppedAt (evaluator.read .expression).2 last (evaluator.read .expression).1 ∧
      evaluator.scanner.Gives (tokens.map .ok ++ [last])
        (evaluator.read .expression).2.scanner ∧
      (evaluator.read .expression).2.journal.toList =
        evaluator.journal.toList ++ (tokens.map Except.ok ++ [last]).map .scanned := by
  have reads : Reads _ _ evaluator (evaluator.read .expression).1
      (evaluator.read .expression).2 := reads_read .expression evaluator
  generalize evaluator.read .expression = reading at reads ⊢
  obtain ⟨answer, after⟩ := reading
  have took := tookUpTo_of_reads reads
  cases answer with
  | ok value =>
      obtain ⟨token, isPending⟩ := Option.isSome_iff_exists.mp (isSome_pending_of_reads reads)
      obtain ⟨tokens, inside, scans, taken, gives, noted⟩ := took
      rw [held_of_no_pending nothing, List.nil_append, held, isPending] at taken
      subst taken
      exact ⟨tokens, .ok token, inside, ⟨token, rfl, isPending⟩, gives, noted⟩
  | error fault =>
      obtain ⟨tokens, last, inside, blamed, scans, taken, gives, noted⟩ := took
      rw [held_of_no_pending nothing, List.nil_append,
        held_of_no_pending (pending_of_fault reads), List.append_nil] at taken
      subst taken
      exact ⟨tokens, last, inside, blamed, gives, noted⟩

end Evaluator
end Abacus
