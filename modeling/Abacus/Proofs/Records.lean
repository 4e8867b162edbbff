/-
What the records tell of a line.

A line that is read leaves one record of the request, one for each token that was scanned,
and one of the outcome.  This is the outcome of the expression that the line begins with: a
line that goes on behind it has no value, and its record still says that it has one.
-/

import Abacus.Proofs.EarliestFault
import Abacus.Proofs.Rescanning
import Abacus.Proofs.Scans
import Abacus.Proofs.Transcript

namespace Abacus

/-! ### Records of a line -/

def requestRecord (line : String) : String :=
  "DEBUG parsing " ++ Text.quoted line

/-- One record for each of the tokens; the end of the input has none. -/
def tokenRecords (tokens : List Token) : List String :=
  (tokens.filter fun token => token.kind ≠ .inputEnd).map fun token =>
    "TRACE lexed " ++ toString token

def outcomeRecord (line : String) : Except Fault Binary64 → String
  | .ok value => "DEBUG evaluated " ++ Text.quoted line ++ " to " ++ value.text
  | .error fault => "DEBUG rejected " ++ Text.quoted line ++ ": " ++ fault.message

namespace Evaluator

/-- The tokens end with the one at which the reading stopped: behind a value it is pending,
and a fault complains about it.  A lexical fault is the next answer behind the tokens. -/
def StoppedBehind (tokens : List Token) (rest : List (Except Fault Token)) :
    Except Fault Binary64 × Evaluator → Prop
  | (.ok _, after) => ∃ token, tokens.getLast? = some token ∧ after.pending = some token
  | (.error (.lexical detail position), _) => rest = [.error (.lexical detail position)]
  | (.error fault, _) => ∃ token, tokens.getLast? = some token ∧
      (fault = .misplaced token ∨ fault = .unclosed token.offset)

/-! ### The journal of a line -/

theorem journal_readLeading (evaluator : Evaluator) (line : String) {events : List Event}
    (noted : ((evaluator.before line).read .expression).2.journal.toList =
      (evaluator.before line).journal.toList ++ events) :
    (evaluator.readLeading line).2.journal.toList = evaluator.journal.toList ++
      .reading line :: (events ++ [outcome line (evaluator.readLeading line).1]) := by
  change (((evaluator.before line).read .expression).2.note _).journal.toList = _
  rw [note, Array.toList_push, noted]
  simp [before, note, onLine]
  rfl

theorem exists_journal_readLeading (evaluator : Evaluator) (line : String) :
    ∃ (tokens : List Token) (last : Except Fault Token) (rest : List (Except Fault Token)),
      (Scanner.ofLine line).answers = tokens.map .ok ++ last :: rest ∧
      (isLastAnswer last = true → rest = []) ∧
      StoppedAt (evaluator.readLeading line).2 last (evaluator.readLeading line).1 ∧
      (evaluator.readLeading line).2.journal.toList =
        evaluator.journal.toList ++ .reading line ::
          ((tokens.map Except.ok ++ [last]).map .scanned ++
            [outcome line (evaluator.readLeading line).1]) := by
  obtain ⟨tokens, last, inside, stopped, gives, noted⟩ :=
    exists_scans_of_expression (rfl : (evaluator.before line).pending = none)
  obtain ⟨rest, answers, ends⟩ := gives.exists_answers_eq inside.ne_inputEnd
  refine ⟨tokens, last, rest, answers, ends, ?_, ?_⟩
  · change StoppedAt (((evaluator.before line).read .expression).2.note _) last
      ((evaluator.before line).read .expression).1
    revert stopped
    cases ((evaluator.before line).read .expression).1 with
    | ok value => exact id
    | error fault => exact id
  · exact evaluator.journal_readLeading line noted

/-- The token that a value leaves pending decides what becomes of the line, and as it was
scanned before, nothing more is noted. -/
theorem readWhole_eq_of_readLeading (evaluator : Evaluator) (line : String) :
    (evaluator.readWhole line).2.journal = (evaluator.readLeading line).2.journal ∧
      match evaluator.readLeading line with
      | (.error fault, _) => (evaluator.readWhole line).1 = .error fault
      | (.ok value, after) => ∃ token, after.pending = some token ∧
          (evaluator.readWhole line).1 =
            if token.isTerminator then .ok value else .error (.misplaced token) := by
  obtain ⟨_, last, _, _, _, stopped, _⟩ := evaluator.exists_journal_readLeading line
  rcases found : evaluator.readLeading line with ⟨fault | value, after⟩
  · rw [evaluator.readWhole_of_rejected found]
    exact ⟨rfl, rfl⟩
  · rw [found] at stopped
    obtain ⟨token, _, pending⟩ := stopped
    rw [evaluator.readWhole_of_leading found, next_eq_of_pending pending]
    exact ⟨rfl, token, pending, rfl⟩

/-! ### Which events are told -/

theorem records_append (least : Severity) {journal journal' : Journal} {events : List Event}
    (longer : journal'.toList = journal.toList ++ events) :
    journal'.records least = journal.records least ++ events.filterMap (Event.record? least) := by
  simp only [Journal.records, longer, List.filterMap_append]

theorem record?_of_debug {least : Severity} (told : least = .trace ∨ least = .debug)
    {event : Event} {text : String} (level : event.severity = .debug)
    (shown : event.text? = some text) : event.record? least = some ("DEBUG " ++ text) := by
  have grave : Severity.debug.rank ≤ least.rank := by
    rcases told with rfl | rfl <;> decide
  rw [Event.record?, level, if_pos grave, shown]
  rfl

theorem record?_reading {least : Severity} (told : least = .trace ∨ least = .debug)
    (line : String) : (Event.reading line).record? least = some (requestRecord line) := by
  rw [record?_of_debug told rfl rfl, ← String.append_assoc]
  rfl

theorem outcomeRecord_ok (line : String) (value : Binary64) :
    outcomeRecord line (.ok value) =
      "DEBUG " ++ ("evaluated " ++ Text.quoted line ++ " to " ++ value.text) := by
  have label : "DEBUG " ++ "evaluated " = "DEBUG evaluated " := rfl
  rw [← String.append_assoc, ← String.append_assoc, ← String.append_assoc, label]
  rfl

theorem outcomeRecord_error (line : String) (fault : Fault) :
    outcomeRecord line (.error fault) =
      "DEBUG " ++ ("rejected " ++ Text.quoted line ++ ": " ++ fault.message) := by
  have label : "DEBUG " ++ "rejected " = "DEBUG rejected " := rfl
  rw [← String.append_assoc, ← String.append_assoc, ← String.append_assoc, label]
  rfl

theorem record?_outcome {least : Severity} (told : least = .trace ∨ least = .debug)
    (line : String) (answer : Except Fault Binary64) :
    (outcome line answer).record? least = some (outcomeRecord line answer) := by
  cases answer with
  | ok value => rw [outcome, record?_of_debug told rfl rfl, outcomeRecord_ok]
  | error fault => rw [outcome, record?_of_debug told rfl rfl, outcomeRecord_error]

theorem record?_scanned (token : Token) :
    (Event.scanned (.ok token)).record? .trace =
      if token.kind = .inputEnd then none else some ("TRACE lexed " ++ toString token) := by
  simp only [Event.record?, Event.severity, Event.text?, Nat.le_refl, if_true]
  split
  · rfl
  · simp [Severity.label, ← String.append_assoc]

theorem filterMap_record?_trace (tokens : List Token) :
    ((tokens.map Except.ok).map .scanned).filterMap (Event.record? .trace) =
      tokenRecords tokens := by
  induction tokens with
  | nil => rfl
  | cons token tokens ih =>
      rw [List.map_cons, List.map_cons, List.filterMap_cons, record?_scanned, ih, tokenRecords,
        tokenRecords, List.filter_cons]
      by_cases isEnd : token.kind = .inputEnd
      · simp [isEnd]
      · simp [isEnd]

theorem filterMap_record?_debug (answers : List (Except Fault Token)) :
    (answers.map .scanned).filterMap (Event.record? .debug) = [] := by
  rw [List.filterMap_eq_nil_iff]
  intro event member
  obtain ⟨answer, _, rfl⟩ := List.mem_map.mp member
  rfl

theorem filterMap_record?_line {least : Severity} (told : least = .trace ∨ least = .debug)
    (line : String) (scans : List Event) (answer : Except Fault Binary64) :
    (.reading line :: (scans ++ [outcome line answer])).filterMap (Event.record? least) =
      requestRecord line :: (scans.filterMap (Event.record? least) ++
        [outcomeRecord line answer]) := by
  rw [List.filterMap_cons_some (record?_reading told line), List.filterMap_append,
    List.filterMap_cons_some (record?_outcome told line answer), List.filterMap_nil]

/-! ### The records of a line -/

theorem stoppedBehind_token {reading : Except Fault Binary64 × Evaluator} {token : Token}
    (stopped : StoppedAt reading.2 (.ok token) reading.1) (tokens : List Token)
    (rest : List (Except Fault Token)) : StoppedBehind (tokens ++ [token]) rest reading := by
  have last : (tokens ++ [token]).getLast? = some token := List.getLast?_concat
  obtain ⟨answer, after⟩ := reading
  cases answer with
  | ok value =>
      obtain ⟨other, same, pending⟩ := stopped
      cases same
      exact ⟨token, last, pending⟩
  | error fault =>
      rcases stopped with rfl | rfl
      · exact ⟨token, last, Or.inl rfl⟩
      · exact ⟨token, last, Or.inr rfl⟩

theorem stoppedBehind_lexical {reading : Except Fault Binary64 × Evaluator} {detail : String}
    {position : Nat} (stopped : StoppedAt reading.2 (.error (.lexical detail position)) reading.1)
    (tokens : List Token) :
    StoppedBehind tokens [.error (.lexical detail position)] reading := by
  obtain ⟨answer, after⟩ := reading
  cases answer with
  | ok value =>
      obtain ⟨token, absent, _⟩ := stopped
      cases absent
  | error fault =>
      cases stopped
      rfl

/-- Whatever was read before, reading a line leaves a record of the request, one of each
token up to the one at which the reading stopped, and one of the outcome.  Reading it as a
whole leaves the same records, whatever follows the expression. -/
theorem records_of_line (evaluator : Evaluator) (line : String) :
    (∃ (tokens : List Token) (rest : List (Except Fault Token)),
      (Scanner.ofLine line).answers = tokens.map .ok ++ rest ∧
      StoppedBehind tokens rest (evaluator.readLeading line) ∧
      (evaluator.readLeading line).2.journal.records .trace =
        evaluator.journal.records .trace ++ requestRecord line ::
          (tokenRecords tokens ++ [outcomeRecord line (evaluator.readLeading line).1])) ∧
    (evaluator.readWhole line).2.journal.records .trace =
      (evaluator.readLeading line).2.journal.records .trace := by
  refine ⟨?_, congrArg _ (evaluator.readWhole_eq_of_readLeading line).1⟩
  obtain ⟨tokens, last, rest, answers, ends, stopped, noted⟩ :=
    evaluator.exists_journal_readLeading line
  have told := records_append .trace noted
  rw [filterMap_record?_line (Or.inl rfl)] at told
  cases last with
  | ok token =>
      have whole : (tokens.map .ok ++ [.ok token] : List (Except Fault Token)) =
          (tokens ++ [token]).map .ok := by
        rw [List.map_append]
        rfl
      rw [whole, filterMap_record?_trace] at told
      refine ⟨tokens ++ [token], rest, ?_, stoppedBehind_token stopped tokens rest, told⟩
      rw [answers, ← whole, List.append_assoc]
      rfl
  | error fault =>
      rw [ends rfl] at answers
      have member : .error fault ∈ (Scanner.ofLine line).answers := by
        rw [answers]
        exact List.mem_append_right _ (List.mem_singleton_self _)
      obtain ⟨detail, position, rfl⟩ := Scanner.lexical_of_mem_answers member
      have unheard : [Event.scanned (.error (.lexical detail position))].filterMap
          (Event.record? .trace) = [] := rfl
      rw [List.map_append, List.filterMap_append, filterMap_record?_trace, List.map_singleton,
        unheard, List.append_nil] at told
      exact ⟨tokens, _, answers, stoppedBehind_lexical stopped tokens, told⟩

/-! ### What is told of the outcome -/

theorem records_debug_readWhole (evaluator : Evaluator) (line : String) :
    (evaluator.readWhole line).2.journal.records .debug =
      evaluator.journal.records .debug ++
        [requestRecord line, outcomeRecord line (evaluator.readLeading line).1] := by
  obtain ⟨tokens, last, _, _, _, _, noted⟩ := evaluator.exists_journal_readLeading line
  rw [(evaluator.readWhole_eq_of_readLeading line).1, records_append .debug noted,
    filterMap_record?_line (Or.inr rfl), filterMap_record?_debug]
  rfl

def GoesOn (evaluator : Evaluator) (line : String) (value : Binary64) (token : Token) : Prop :=
  (evaluator.readLeading line).1 = .ok value ∧
    (evaluator.readLeading line).2.pending = some token ∧ token.isTerminator = false

theorem readWhole_of_goesOn {evaluator : Evaluator} {line : String} {value : Binary64}
    {token : Token} (goesOn : evaluator.GoesOn line value token) :
    (evaluator.readWhole line).1 = .error (.misplaced token) := by
  have decided := (evaluator.readWhole_eq_of_readLeading line).2
  obtain ⟨valued, pending, inside⟩ := goesOn
  rcases found : evaluator.readLeading line with ⟨fault | other, after⟩
  · rw [found] at valued
    cases valued
  · rw [found] at decided pending
    obtain ⟨first, isPending, whole⟩ := decided
    cases pending.symm.trans isPending
    rw [whole, inside]
    rfl

/-- A line that does not go on has the value or the fault of its expression. -/
theorem readLeading_eq_readWhole_or_goesOn (evaluator : Evaluator) (line : String) :
    (evaluator.readLeading line).1 = (evaluator.readWhole line).1 ∨
      ∃ value token, evaluator.GoesOn line value token := by
  have decided := (evaluator.readWhole_eq_of_readLeading line).2
  rcases found : evaluator.readLeading line with ⟨fault | value, after⟩
  · rw [found] at decided
    exact Or.inl decided.symm
  · rw [found] at decided
    obtain ⟨token, pending, whole⟩ := decided
    cases ends : token.isTerminator with
    | true =>
        rw [ends] at whole
        exact Or.inl whole.symm
    | false =>
        refine Or.inr ⟨value, token, ?_, ?_, ends⟩
        · rw [found]
        · rw [found]
          exact pending

theorem outcomeRecord_ok_ne_error (line : String) (value : Binary64) (fault : Fault) :
    outcomeRecord line (.ok value) ≠ outcomeRecord line (.error fault) := by
  intro same
  rw [outcomeRecord_ok, outcomeRecord_error] at same
  have letters := congrArg String.toList same
  simp only [String.toList_append, List.append_assoc] at letters
  have begins := congrArg (List.take 1) (List.append_cancel_left letters)
  rw [List.take_append_of_le_length (by decide), List.take_append_of_le_length (by decide)]
    at begins
  exact absurd begins (by decide)

end Evaluator

/-- A session notes what its evaluator notes of the lines that are evaluated. -/
theorem Session.evaluator_reply (session : Session) (line : String) :
    (session.reply line).2.evaluator =
      if Text.trim line = exitCommand ∨ Text.trim line = "" then session.evaluator
      else (session.evaluator.readWhole (Text.trim line)).2 := by
  unfold reply
  simp only
  split
  · next leaves => rw [if_pos (Or.inl leaves)]
  · next stays =>
      split
      · next empty => rw [if_pos (Or.inr empty)]
      · next notEmpty =>
          rw [if_neg (not_or.mpr ⟨stays, notEmpty⟩)]
          split <;> rfl

/-- Reading a line as a whole leaves a single record of an outcome, and a session leaves no
other.  It is the outcome of the expression that the line begins with, and so it is that of
the line, unless the line goes on: then it tells of the value of a line that has a fault. -/
theorem outcome_told_iff_not_goesOn (evaluator : Evaluator) (line : String) :
    (evaluator.readWhole line).2.journal.records .debug =
      evaluator.journal.records .debug ++
        [requestRecord line, outcomeRecord line (evaluator.readLeading line).1] ∧
    (outcomeRecord line (evaluator.readLeading line).1 =
        outcomeRecord line (evaluator.readWhole line).1 ↔
      ¬ ∃ value token, evaluator.GoesOn line value token) ∧
    (∀ value token, evaluator.GoesOn line value token →
      (evaluator.readWhole line).1 = .error (.misplaced token)) ∧
    ∀ precision, (Session.reply ⟨evaluator, precision⟩ line).2.evaluator =
      if Text.trim line = Session.exitCommand ∨ Text.trim line = "" then evaluator
      else (evaluator.readWhole (Text.trim line)).2 := by
  refine ⟨evaluator.records_debug_readWhole line, ⟨?_, ?_⟩,
    fun _ _ goesOn => Evaluator.readWhole_of_goesOn goesOn,
    fun precision => Session.evaluator_reply ⟨evaluator, precision⟩ line⟩
  · rintro same ⟨value, token, goesOn⟩
    rw [goesOn.1, Evaluator.readWhole_of_goesOn goesOn] at same
    exact Evaluator.outcomeRecord_ok_ne_error line value _ same
  · intro ends
    rcases evaluator.readLeading_eq_readWhole_or_goesOn line with same | goesOn
    · rw [same]
    · exact absurd goesOn ends

/-- A value is told of a line that has none. -/
theorem value_told_of_refused_line :
    evaluate "1 2" = .error (.unexpected "'2'" 2) ∧
      (Evaluator.empty.readWhole "1 2").2.journal.records .debug =
        ["DEBUG parsing \"1 2\"", "DEBUG evaluated \"1 2\" to 1"] := by
  constructor <;> decide +kernel

end Abacus
