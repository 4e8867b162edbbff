/-
The transcript of a session.

What a run writes is determined by its input alone.  What the session was used for before
makes no difference, and neither does what one of the lines does to the evaluator: every line
is answered as by a fresh one.
-/

import Abacus.Proofs.Language
import Abacus.Session

namespace Abacus

/-! ### Cutting an input into lines -/

/-- The lines are the input, cut behind each of its line feeds and nowhere else. -/
structure IsCut (input : List UInt8) (lines : List (List UInt8)) : Prop where
  joined : lines.flatten = input
  some_byte : ∀ line ∈ lines, line ≠ []
  inside : ∀ line ∈ lines, 0x0a ∉ line.dropLast
  ended : ∀ line ∈ lines.dropLast, line.getLast? = some 0x0a

namespace IsCut

theorem nil : IsCut [] [] where
  joined := rfl
  some_byte := List.forall_mem_nil _
  inside := List.forall_mem_nil _
  ended := List.forall_mem_nil _

theorem single {line : List UInt8} (notEmpty : line ≠ []) (inside : 0x0a ∉ line.dropLast) :
    IsCut line [line] where
  joined := List.flatten_singleton
  some_byte := List.forall_mem_singleton.mpr notEmpty
  inside := List.forall_mem_singleton.mpr inside
  ended := List.forall_mem_nil _

theorem cons {body rest : List UInt8} {lines : List (List UInt8)} (free : 0x0a ∉ body)
    (cut : IsCut rest lines) : IsCut (body ++ 0x0a :: rest) ((body ++ [0x0a]) :: lines) where
  joined := by
    rw [List.flatten_cons, cut.joined, List.append_assoc]
    rfl
  some_byte := List.forall_mem_cons.mpr ⟨by simp, cut.some_byte⟩
  inside := by
    refine List.forall_mem_cons.mpr ⟨?_, cut.inside⟩
    rw [List.dropLast_concat]
    exact free
  ended := by
    cases others : lines with
    | nil => exact List.forall_mem_nil _
    | cons line more =>
        rw [List.dropLast_cons_cons, ← others]
        exact List.forall_mem_cons.mpr ⟨List.getLast?_concat, cut.ended⟩

theorem cases_cons {input line : List UInt8} {lines : List (List UInt8)}
    (cut : IsCut input (line :: lines)) :
    (lines = [] ∧ line = input ∧ input ≠ [] ∧ 0x0a ∉ input) ∨
      ∃ body rest, 0x0a ∉ body ∧ line = body ++ [0x0a] ∧ input = body ++ 0x0a :: rest ∧
        IsCut rest lines := by
  have joined := cut.joined
  have inside := cut.inside line List.mem_cons_self
  obtain ⟨body, last, rfl⟩ : ∃ body last, line = body ++ [last] :=
    ⟨_, _, (List.dropLast_concat_getLast (cut.some_byte line List.mem_cons_self)).symm⟩
  rw [List.dropLast_concat] at inside
  rw [List.flatten_cons] at joined
  by_cases feed : last = 0x0a
  · subst feed
    refine Or.inr ⟨body, lines.flatten, inside, rfl, ?_, rfl, ?_, ?_, ?_⟩
    · rw [← joined, List.append_assoc]
      rfl
    · exact fun other member => cut.some_byte other (List.mem_cons_of_mem _ member)
    · exact fun other member => cut.inside other (List.mem_cons_of_mem _ member)
    · intro other member
      refine cut.ended other ?_
      rw [List.dropLast_cons_of_ne_nil (List.ne_nil_of_mem (List.dropLast_subset _ member))]
      exact List.mem_cons_of_mem _ member
  · cases lines with
    | nil =>
        rw [List.flatten_nil, List.append_nil] at joined
        subst joined
        refine Or.inl ⟨rfl, rfl, by simp, ?_⟩
        intro member
        rcases List.mem_append.mp member with before | isLast
        · exact inside before
        · exact feed (List.mem_singleton.mp isLast).symm
    | cons next others =>
        have ended := cut.ended (body ++ [last]) List.mem_cons_self
        rw [List.getLast?_concat] at ended
        exact absurd (Option.some.inj ended) feed

end IsCut

namespace Session

theorem lines_of_not_mem {input : List UInt8} (notEmpty : input ≠ []) (free : 0x0a ∉ input) :
    lines input = [input] := by
  induction input with
  | nil => exact absurd rfl notEmpty
  | cons byte rest ih =>
      have other : byte ≠ 0x0a := fun feed => free (by rw [feed]; exact List.mem_cons_self)
      change consByte byte (lines rest) = _
      cases rest with
      | nil => rfl
      | cons next more =>
          rw [ih (List.cons_ne_nil _ _) (fun member => free (List.mem_cons_of_mem _ member))]
          exact if_neg other

theorem lines_append {body : List UInt8} (free : 0x0a ∉ body) (rest : List UInt8) :
    lines (body ++ 0x0a :: rest) = (body ++ [0x0a]) :: lines rest := by
  induction body with
  | nil =>
      change consByte 0x0a (lines rest) = _
      cases lines rest with
      | nil => rfl
      | cons line others => rfl
  | cons byte body ih =>
      have other : byte ≠ 0x0a := fun feed => free (by rw [feed]; exact List.mem_cons_self)
      change consByte byte (lines (body ++ 0x0a :: rest)) = _
      rw [ih (fun member => free (List.mem_cons_of_mem _ member))]
      exact if_neg other

theorem isCut_lines (input : List UInt8) : IsCut input (lines input) := by
  by_cases feed : 0x0a ∈ input
  · obtain ⟨body, rest, split, free⟩ := List.eq_append_cons_of_mem feed
    rw [split, lines_append free]
    exact (isCut_lines rest).cons free
  · cases input with
    | nil => exact IsCut.nil
    | cons byte rest =>
        rw [lines_of_not_mem (List.cons_ne_nil byte rest) feed]
        exact IsCut.single (List.cons_ne_nil byte rest) fun member =>
          feed (List.dropLast_subset _ member)
termination_by input.length
decreasing_by
  rw [split, List.length_append, List.length_cons]
  omega

theorem isCut_iff (input : List UInt8) (cut : List (List UInt8)) :
    IsCut input cut ↔ cut = lines input := by
  constructor
  · intro isCut
    induction cut generalizing input with
    | nil =>
        rw [← isCut.joined]
        rfl
    | cons line others ih =>
        rcases isCut.cases_cons with ⟨rfl, rfl, notEmpty, free⟩ | ⟨body, rest, free, rfl, rfl, more⟩
        · exact (lines_of_not_mem notEmpty free).symm
        · rw [lines_append free, ← ih rest more]
  · rintro rfl
    exact isCut_lines input

end Session

/-! ### What is written -/

def Output.followedBy (output : Output) (text : String) : Output :=
  { output with bytes := output.bytes ++ text.toUTF8 }

namespace Output

theorem followedBy_empty (output : Output) : output.followedBy "" = output := by
  change { output with bytes := output.bytes ++ ByteArray.empty } = output
  rw [ByteArray.append_empty]

theorem followedBy_append (output : Output) (first second : String) :
    output.followedBy (first ++ second) = (output.followedBy first).followedBy second := by
  simp only [followedBy, String.toUTF8_eq_toByteArray, String.toByteArray_append,
    ByteArray.append_assoc]

end Output

def Binary64.inPlaces (value : Binary64) (places : Nat) : String :=
  value.textWith fun code => (rounded code places).numeral

theorem Binary64.fixed?_eq {places : Nat} (few : places ≤ greatestPlaces) (value : Binary64) :
    value.fixed? places = some (value.inPlaces places) := by
  simp only [fixed?, if_pos few, inPlaces, fixedNumeral_eq]

namespace Session

def said? (line : List UInt8) : Option String :=
  (String.fromUTF8? ⟨line.toArray⟩).map Text.trim

/-- Whether a session goes on after the line. -/
def isHeard (line : List UInt8) : Bool :=
  match said? line with
  | none => false
  | some said => said ≠ exitCommand

def answerTo (precision : Nat) (said : String) : String :=
  if said = "" then ""
  else
    match evaluate said with
    | .ok value => "= " ++ value.inPlaces precision ++ "\n"
    | .error fault => "Error: " ++ fault.message ++ "\n"

def shown (interactive : Bool) (text : String) : String :=
  if interactive then text else ""

/-- The answers to the lines that are heard, with a prompt in front of each of these
lines, and in front of what ends the session. -/
def exchange (precision : Nat) (interactive : Bool) (lines : List (List UInt8)) : String :=
  String.join (((lines.takeWhile isHeard).filterMap said?).map fun said =>
    shown interactive prompt ++ answerTo precision said) ++ shown interactive prompt

def transcript (precision : Nat) (interactive : Bool) (lines : List (List UInt8)) : String :=
  shown interactive banner ++ exchange precision interactive lines

/-- Of what can end a session, only a line that is no text is a failure. -/
def endingOf (lines : List (List UInt8)) : Ending :=
  match (lines.dropWhile isHeard).head? with
  | none => .finished
  | some line => if (ByteArray.mk line.toArray).IsValidUTF8 then .finished else .invalidText

theorem exists_said_of_isHeard {line : List UInt8} (heard : isHeard line = true) :
    ∃ said, said? line = some said := by
  cases isSaid : said? line with
  | none =>
      simp only [isHeard, isSaid] at heard
      cases heard
  | some said => exact ⟨said, rfl⟩

theorem exchange_of_isHeard {line : List UInt8} {said : String} (isSaid : said? line = some said)
    (heard : isHeard line = true) (precision : Nat) (interactive : Bool)
    (lines : List (List UInt8)) :
    exchange precision interactive (line :: lines) =
      shown interactive prompt ++ (answerTo precision said ++
        exchange precision interactive lines) := by
  unfold exchange
  rw [List.takeWhile_cons_of_pos heard, List.filterMap_cons_some isSaid, List.map_cons,
    String.join_cons]
  simp only [String.append_assoc]

theorem exchange_of_not_isHeard {line : List UInt8} (unheard : isHeard line = false)
    (precision : Nat) (interactive : Bool) (lines : List (List UInt8)) :
    exchange precision interactive (line :: lines) = shown interactive prompt := by
  have stops : ¬ isHeard line = true := by rw [unheard]; exact Bool.false_ne_true
  rw [exchange, List.takeWhile_cons_of_neg stops]
  exact String.empty_append

theorem endingOf_of_isHeard {line : List UInt8} (heard : isHeard line = true)
    (lines : List (List UInt8)) : endingOf (line :: lines) = endingOf lines := by
  rw [endingOf, List.dropWhile_cons_of_pos heard]
  rfl

/-! ### One line -/

theorem announce_eq {output : Output} (free : output.capacity = none) (interactive : Bool)
    (text : String) :
    announce interactive text output = (true, output.followedBy (shown interactive text)) := by
  cases interactive with
  | false => exact congrArg (Prod.mk true) output.followedBy_empty.symm
  | true => exact output.write_unbounded text free

theorem precision_reply (session : Session) (line : String) :
    (session.reply line).2.precision = session.precision := by
  unfold reply
  simp only
  split
  · rfl
  · split
    · rfl
    · split <;> rfl

theorem reply_fst_eq (session : Session) {line : String} (stays : Text.trim line ≠ exitCommand)
    (notBlank : Text.trim line ≠ "") :
    (session.reply line).1 =
      (answerText? session.precision (evaluate (Text.trim line))).elim .refused .print := by
  have same := session.evaluator.readWhole_fst_eq_evaluate (Text.trim line)
  unfold reply
  simp only [if_neg stays, if_neg notBlank, same]
  cases answerText? session.precision (evaluate (Text.trim line)) with
  | none => rfl
  | some answer => rfl

theorem exists_reply_eq (session : Session) {line : String}
    (few : session.precision ≤ Binary64.greatestPlaces) (stays : Text.trim line ≠ exitCommand)
    (notBlank : Text.trim line ≠ "") :
    ∃ answer after, session.reply line = (.print answer, after) ∧
      answer ++ "\n" = answerTo session.precision (Text.trim line) ∧
      after.precision = session.precision := by
  have replied := session.reply_fst_eq stays notBlank
  have kept := session.precision_reply line
  generalize session.reply line = replies at replied kept ⊢
  obtain ⟨reply, after⟩ := replies
  rw [answerTo, if_neg notBlank]
  cases outcome : evaluate (Text.trim line) with
  | ok value =>
      rw [outcome, answerText?, Binary64.fixed?_eq few] at replied
      cases replied
      exact ⟨_, after, rfl, rfl, kept⟩
  | error fault =>
      rw [outcome] at replied
      cases replied
      exact ⟨_, after, rfl, rfl, kept⟩

theorem exists_turn_eq (session : Session) {output : Output} {line : List UInt8} {said : String}
    (few : session.precision ≤ Binary64.greatestPlaces) (free : output.capacity = none)
    (isSaid : said? line = some said) (heard : isHeard line = true) :
    ∃ after, session.turn output line =
        (none, after, output.followedBy (answerTo session.precision said)) ∧
      after.precision = session.precision := by
  obtain ⟨text, isText, rfl⟩ := Option.map_eq_some_iff.mp isSaid
  have stays : Text.trim text ≠ exitCommand := by
    simp only [isHeard, isSaid] at heard
    exact of_decide_eq_true heard
  unfold turn
  simp only [isText]
  by_cases blank : Text.trim text = ""
  · refine ⟨session, ?_, rfl⟩
    simp only [reply, if_neg stays, if_pos blank, answerTo, output.followedBy_empty]
  · obtain ⟨answer, after, replied, isAnswer, kept⟩ := session.exists_reply_eq few stays blank
    refine ⟨after, ?_, kept⟩
    rw [← isAnswer]
    simp only [replied, output.write_unbounded _ free]
    rfl

private theorem fromUTF8?_isSome (bytes : ByteArray) :
    (String.fromUTF8? bytes).isSome = true ↔ bytes.IsValidUTF8 := by
  unfold String.fromUTF8?
  split
  · next valid => exact iff_of_true rfl valid
  · next invalid => exact iff_of_false Bool.false_ne_true invalid

theorem turn_of_not_isHeard (session : Session) (output : Output) {line : List UInt8}
    (unheard : isHeard line = false) (lines : List (List UInt8)) :
    session.turn output line = (some (endingOf (line :: lines)), session, output) := by
  have stops : ¬ isHeard line = true := by rw [unheard]; exact Bool.false_ne_true
  rw [endingOf, List.dropWhile_cons_of_neg stops]
  have valid := fromUTF8?_isSome ⟨line.toArray⟩
  unfold turn
  cases decoded : String.fromUTF8? ⟨line.toArray⟩ with
  | none =>
      rw [decoded] at valid
      have invalid : ¬ (ByteArray.mk line.toArray).IsValidUTF8 :=
        fun isText => Bool.false_ne_true (valid.mpr isText)
      simp only [List.head?_cons, if_neg invalid]
  | some text =>
      rw [decoded] at valid
      have leaves : Text.trim text = exitCommand := by
        simp only [isHeard, said?, decoded, Option.map_some] at unheard
        exact of_not_not (of_decide_eq_false unheard)
      simp only [List.head?_cons, if_pos (valid.mp rfl), reply, if_pos leaves]

/-! ### A whole run -/

theorem converse_eq (interactive : Bool) (lines : List (List UInt8)) (session : Session)
    {output : Output} (few : session.precision ≤ Binary64.greatestPlaces)
    (free : output.capacity = none) :
    (converse interactive session output lines).output =
        output.followedBy (exchange session.precision interactive lines) ∧
      (converse interactive session output lines).ending = endingOf lines := by
  induction lines generalizing session output with
  | nil =>
      simp only [converse, announce_eq free]
      exact ⟨congrArg output.followedBy String.empty_append.symm, rfl⟩
  | cons line lines ih =>
      have freePrompted : (output.followedBy (shown interactive prompt)).capacity = none := free
      simp only [converse, announce_eq free]
      cases heard : isHeard line with
      | false =>
          rw [exchange_of_not_isHeard heard, session.turn_of_not_isHeard _ heard lines]
          exact ⟨rfl, rfl⟩
      | true =>
          obtain ⟨said, isSaid⟩ := exists_said_of_isHeard heard
          obtain ⟨after, turned, kept⟩ := session.exists_turn_eq few freePrompted isSaid heard
          simp only [turned, exchange_of_isHeard isSaid heard, endingOf_of_isHeard heard,
            Output.followedBy_append]
          rw [← kept] at few ⊢
          exact ih after few free

/-! ### What a session was used for before -/

/-- A use of a session, whatever comes of it. -/
inductive Call where
  | line (text : String)
  | run (interactive : Bool) (output : Output) (input : List UInt8)

def afterCall (session : Session) : Call → Session
  | .line text => (session.reply text).2
  | .run interactive output input => (session.run interactive output input).session

theorem precision_turn (session : Session) (output : Output) (line : List UInt8) :
    (session.turn output line).2.1.precision = session.precision := by
  unfold turn
  split
  · rfl
  · next text _ =>
      have kept := session.precision_reply text
      rcases replied : session.reply text with ⟨reply, after⟩
      rw [replied] at kept
      cases reply with
      | leave => exact kept
      | refused => exact kept
      | skip => exact kept
      | print answer =>
          simp only
          split <;> exact kept

theorem precision_converse (interactive : Bool) (lines : List (List UInt8)) (session : Session)
    (output : Output) :
    (converse interactive session output lines).session.precision = session.precision := by
  induction lines generalizing session output with
  | nil =>
      unfold converse
      split <;> rfl
  | cons line lines ih =>
      unfold converse
      split
      · rfl
      · next written _ =>
          have kept := session.precision_turn written line
          split
          · next turned =>
              rw [turned] at kept
              exact kept
          · next turned =>
              rw [turned] at kept
              exact (ih _ _).trans kept

theorem precision_afterCall (session : Session) (call : Call) :
    (session.afterCall call).precision = session.precision := by
  cases call with
  | line text =>
      rw [afterCall]
      exact session.precision_reply text
  | run interactive output input =>
      change (session.run interactive output input).session.precision = _
      unfold run
      split
      · rfl
      · exact precision_converse interactive (lines input) session _

theorem precision_foldl_afterCall (history : List Call) (session : Session) :
    (history.foldl afterCall session).precision = session.precision := by
  induction history generalizing session with
  | nil => rfl
  | cons call history ih => exact (ih _).trans (session.precision_afterCall call)

/-- A run writes the transcript of its lines and ends as they say, whatever the session
was used for before. -/
theorem run_eq_transcript (evaluator : Evaluator) (precision : Nat) (history : List Call)
    (interactive : Bool) (input : List UInt8) (few : precision ≤ Binary64.greatestPlaces) :
    ∃ lines, (∀ cut, IsCut input cut ↔ cut = lines) ∧
      ((history.foldl afterCall ⟨evaluator, precision⟩).run
          interactive .unbounded input).output.bytes =
        (transcript precision interactive lines).toUTF8 ∧
      ((history.foldl afterCall ⟨evaluator, precision⟩).run
          interactive .unbounded input).ending = endingOf lines := by
  refine ⟨lines input, isCut_iff input, ?_⟩
  generalize used : history.foldl afterCall ⟨evaluator, precision⟩ = session
  have kept : session.precision = precision := by
    rw [← used]
    exact precision_foldl_afterCall history _
  rw [← kept] at few ⊢
  have free : (Output.unbounded.followedBy (shown interactive banner)).capacity = none := rfl
  obtain ⟨written, ended⟩ := converse_eq interactive (lines input) session few free
  unfold run
  simp only [announce_eq (rfl : Output.unbounded.capacity = none)]
  refine ⟨?_, ended⟩
  rw [written, transcript, ← Output.followedBy_append]
  exact ByteArray.empty_append

/-- A value, a blank line and then bytes that are no text, after an open parenthesis and
an output that was full. -/
theorem run_eq_transcript_of_invalid_line :
    2 ≤ Binary64.greatestPlaces ∧
      (([Call.line "(1", .run true (.bounded 9) [0x31, 0x0a]].foldl afterCall (start 2)).run
          false .unbounded [0x32, 0x0a, 0x20, 0x0a, 0xff]).output.bytes = "= 2.00\n".toUTF8 ∧
      (([Call.line "(1", .run true (.bounded 9) [0x31, 0x0a]].foldl afterCall (start 2)).run
          false .unbounded [0x32, 0x0a, 0x20, 0x0a, 0xff]).ending = .invalidText := by
  have few : 2 ≤ Binary64.greatestPlaces := by decide
  obtain ⟨lines, cuts, written, ended⟩ := run_eq_transcript .empty 2
    [.line "(1", .run true (.bounded 9) [0x31, 0x0a]] false [0x32, 0x0a, 0x20, 0x0a, 0xff] few
  have cut : IsCut [0x32, 0x0a, 0x20, 0x0a, 0xff] [[0x32, 0x0a], [0x20, 0x0a], [0xff]] :=
    ⟨by decide, by decide, by decide, by decide⟩
  obtain rfl := (cuts _).mp cut
  refine ⟨few, written.trans (congrArg String.toUTF8 ?_), ended.trans ?_⟩
  · decide +kernel
  · decide +kernel

end Session
end Abacus
