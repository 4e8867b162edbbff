/-
Reading comes to an end, and it scans little.

Every call leaves less to read or goes to a smaller phrase, so calls cannot follow one another
for long.  The end of the input and a lexical fault take no byte, but either is found by the
last scan: a reading that puts the end of the input back takes it from there again, and one
that does not has failed.
-/

import Abacus.Proofs.Cursor
import Abacus.Proofs.Records

namespace Abacus

/-! ### Few answers -/

namespace Scanner

/-- With so many bytes in front of it, the scanner gives the answers in a row.  There is at most
one for each byte, and one more, and only the last can be the end of the input or a fault. -/
structure GivesFew (scanner : Scanner) (bytes : Nat) (answers : List (Except Fault Token))
    (after : Scanner) : Prop where
  gives : scanner.Gives answers after
  few : answers.length ≤ bytes + 1
  ordinary : ∀ answer ∈ answers.dropLast, isOrdinary answer = true

theorem Gives.take_stream {scanner after : Scanner} {answers : List (Except Fault Token)}
    (gives : scanner.Gives answers after) : scanner.stream.take answers.length = answers := by
  induction gives with
  | done scanner => rfl
  | more scanner after answers _ ih =>
      rw [stream_eq, List.length_cons, Stream'.take_succ_cons, ih]

theorem In.gives {scanner after : Scanner} {line : String} {answers : List (Except Fault Token)}
    (stands : scanner.In line) (gives : scanner.Gives answers after) : after.In line := by
  induction gives with
  | done scanner => exact stands
  | more scanner after answers _ ih => exact ih stands.next

theorem In.givesFew {scanner after : Scanner} {line : String} {answers : List (Except Fault Token)}
    (stands : scanner.In line) (gives : scanner.Gives answers after)
    (ordinary : ∀ answer ∈ answers.dropLast, isOrdinary answer = true) :
    scanner.GivesFew (line.utf8ByteSize - scanner.position) answers after := by
  have bound := stands.countP_le answers.length
  rw [gives.take_stream] at bound
  have part : answers.dropLast.countP isOrdinary ≤ answers.countP isOrdinary :=
    (List.dropLast_sublist answers).countP_le
  rw [List.countP_eq_length.mpr ordinary, List.length_dropLast] at part
  exact ⟨gives, by omega, ordinary⟩

end Scanner

namespace Evaluator

/-! ### What a reading scans -/

theorem isOrdinary_of_inside {tokens : List Token} (inside : Inside tokens) :
    ∀ answer ∈ tokens.map Except.ok, Scanner.isOrdinary answer = true := by
  intro answer member
  obtain ⟨token, isToken, rfl⟩ := List.mem_map.mp member
  have notEnd := inside.ne_inputEnd token isToken
  simp only [Scanner.isOrdinary, isLastAnswer, notEnd, decide_false, Bool.not_false]

/-- Where at most one answer was given behind those that were taken, every scan but the last
gave one that was taken. -/
theorem mem_of_mem_dropLast {held scans taken more : List (Except Fault Token)}
    (same : held ++ scans = taken ++ more) (one : more.length ≤ 1) {answer : Except Fault Token}
    (member : answer ∈ scans.dropLast) : answer ∈ taken := by
  have notEmpty : scans ≠ [] := by
    rintro rfl
    cases member
  have within : answer ∈ (taken ++ more).dropLast := by
    rw [← same, List.dropLast_append_of_ne_nil notEmpty]
    exact List.mem_append_right held member
  cases more with
  | nil =>
      rw [List.append_nil] at within
      exact (List.dropLast_sublist taken).mem within
  | cons last others =>
      obtain rfl : others = [] :=
        List.length_eq_zero_iff.mp (Nat.le_zero.mp (Nat.le_of_succ_le_succ one))
      rw [List.dropLast_concat] at within
      exact within

theorem length_held_le (evaluator : Evaluator) : evaluator.held.length ≤ 1 := by
  unfold held
  cases evaluator.pending with
  | none => exact Nat.zero_le 1
  | some token => exact Nat.le_refl 1

/-- The scans for a reading are noted, and only the last can find the end of the input or a
fault: what is behind the tokens that are taken is put back, or the reading fails at it. -/
theorem exists_scans_of_reads {task : Task} {before after : Evaluator}
    {answer : Except Fault Binary64} (reads : Reads source task before answer after) :
    ∃ scans, before.scanner.Gives scans after.scanner ∧
      after.journal.toList = before.journal.toList ++ scans.map .scanned ∧
      ∀ scanned ∈ scans.dropLast, Scanner.isOrdinary scanned = true := by
  have took := tookUpTo_of_reads reads
  cases answer with
  | ok value =>
      obtain ⟨tokens, inside, scans, same, gives, noted⟩ := took
      refine ⟨scans, gives, noted, ?_⟩
      intro scanned member
      exact isOrdinary_of_inside inside scanned
        (mem_of_mem_dropLast same after.length_held_le member)
  | error fault =>
      obtain ⟨tokens, last, inside, _, scans, same, gives, noted⟩ := took
      rw [held_of_no_pending (pending_of_fault reads), List.append_nil] at same
      refine ⟨scans, gives, noted, ?_⟩
      intro scanned member
      exact isOrdinary_of_inside inside scanned
        (mem_of_mem_dropLast same (Nat.le_refl 1) member)

/-! ### Calls -/

/-- To read the first task from the first state, the second one has to be read from the second
state, and no other reading stands between the two. -/
inductive Calls : Task → Evaluator → Task → Evaluator → Prop where
  | inside (before : Evaluator) (opening : Token) (answered : before.next.1 = .ok opening)
      (opens : opening.kind = .openParen) :
      Calls (.phrase .atom) before (.phrase .expression) before.next.2
  | negated (before : Evaluator) (minus : Token) (answered : before.next.1 = .ok minus)
      (negates : minus.kind = .operator .minus) :
      Calls (.phrase .primary) before (.phrase .atom) before.next.2
  | plain (before : Evaluator) (token : Token) (answered : before.next.1 = .ok token)
      (notMinus : token.kind ≠ .operator .minus) :
      Calls (.phrase .primary) before (.phrase .atom) (before.next.2.putBack token)
  | first (level : Level) (before : Evaluator) :
      Calls (.phrase (.chain level)) before (.phrase level.part) before
  | links (level : Level) (before : Evaluator) (value : Binary64)
      (found : (before.read level.part).1 = .ok value) :
      Calls (.phrase (.chain level)) before (.links level value) (before.read level.part).2
  | part (level : Level) (value : Binary64) (before : Evaluator) (joint : Token)
      (operator : Operator) (answered : before.next.1 = .ok joint)
      (joins : joint.kind.joint? level = some operator) :
      Calls (.links level value) before (.phrase level.part) before.next.2
  | more (level : Level) (value right : Binary64) (before : Evaluator) (joint : Token)
      (operator : Operator) (answered : before.next.1 = .ok joint)
      (joins : joint.kind.joint? level = some operator)
      (found : (before.next.2.read level.part).1 = .ok right) :
      Calls (.links level value) before (.links level (operator.apply value right))
        (before.next.2.read level.part).2

inductive CallsAt : Nat → Task → Evaluator → Task → Evaluator → Prop where
  | outermost (task : Task) (state : Evaluator) : CallsAt 0 task state task state
  | deeper (depth : Nat) (outer middle inner : Task) (before between inside : Evaluator)
      (reached : CallsAt depth outer before middle between)
      (calls : Calls middle between inner inside) :
      CallsAt (depth + 1) outer before inner inside

section

variable {evaluator after : Evaluator} {line : String}

theorem in_of_reads {task : Task} {answer : Except Fault Binary64}
    (reads : Reads source task evaluator answer after) (stands : evaluator.scanner.In line) :
    after.scanner.In line := by
  obtain ⟨scans, gives, _⟩ := exists_scans_of_reads reads
  exact stands.gives gives

theorem in_read (stands : evaluator.scanner.In line) (nonterminal : Nonterminal) :
    (evaluator.read nonterminal).2.scanner.In line :=
  in_of_reads (reads_read nonterminal evaluator) stands

theorem in_next (stands : evaluator.scanner.In line) : evaluator.next.2.scanner.In line := by
  have gave : evaluator.GaveOut [evaluator.next.1] evaluator.next.2 := gaveOut_next rfl
  obtain ⟨scans, _, gives, _⟩ := gave
  exact stands.gives gives

theorem Calls.stands {task inner : Task} (calls : Calls task evaluator inner after)
    (stands : evaluator.scanner.In line) : after.scanner.In line := by
  cases calls with
  | inside before opening answered opens => exact in_next stands
  | negated before minus answered negates => exact in_next stands
  | plain before token answered notMinus => exact in_next stands
  | first level before => exact stands
  | links level before value found => exact in_read stands level.part
  | part level value before joint operator answered joins => exact in_next stands
  | more level value right before joint operator answered joins found =>
      exact in_read (in_next stands) level.part

theorem CallsAt.stands {depth : Nat} {task inner : Task}
    (reached : CallsAt depth task evaluator inner after) (stands : evaluator.scanner.In line) :
    after.scanner.In line := by
  induction reached with
  | outermost task state => exact stands
  | deeper depth outer middle inner before between inside _ calls ih =>
      exact calls.stands (ih stands)

end

/-! ### Calls come to an end -/

def taskRank : Task → Nat
  | .phrase nonterminal => rank nonterminal
  | .links _ _ => 0

/-- What every call makes smaller: first what is left to read, and then the task. -/
def taskSize (task : Task) (state : Evaluator) : Nat :=
  5 * state.size + taskRank task

theorem size_next_lt_of_kind {evaluator : Evaluator} {token : Token} {kind : Kind}
    (answered : evaluator.next.1 = .ok token) (other : kind ≠ .inputEnd)
    (is : token.kind = kind) : evaluator.next.2.size < evaluator.size := by
  have bound := size_after evaluator evaluator.next.2 token (Prod.ext answered rfl)
  rw [weight_of_kind token kind other is] at bound
  exact bound

theorem Calls.taskSize_lt {task inner : Task} {before inside : Evaluator}
    (calls : Calls task before inner inside) : taskSize inner inside < taskSize task before := by
  cases calls with
  | inside before opening answered opens =>
      have less := size_next_lt_of_kind answered Kind.noConfusion opens
      simp only [taskSize, taskRank, rank]
      omega
  | negated before minus answered negates =>
      have less := size_next_lt_of_kind answered Kind.noConfusion negates
      simp only [taskSize, taskRank, rank]
      omega
  | plain before token answered notMinus =>
      have bound := (next_of_token before before.next.2 token (Prod.ext answered rfl)).2
      rw [← size_putBack] at bound
      simp only [taskSize, taskRank, rank]
      omega
  | first level before =>
      have smaller := rank_part_lt level
      simp only [taskSize, taskRank]
      omega
  | links level before value found =>
      have left := size_read_le before level.part
      have smaller := rank_part_lt level
      simp only [taskSize, taskRank]
      omega
  | part level value before joint operator answered joins =>
      have isOperator := ((Kind.joint?_eq_some_iff level joint.kind operator).mp joins).1
      have less := size_next_lt_of_kind answered Kind.noConfusion isOperator
      have small := rank_le level.part
      simp only [taskSize, taskRank]
      omega
  | more level value right before joint operator answered joins found =>
      have isOperator := ((Kind.joint?_eq_some_iff level joint.kind operator).mp joins).1
      have less := size_next_lt_of_kind answered Kind.noConfusion isOperator
      have left := size_read_le before.next.2 level.part
      simp only [taskSize, taskRank]
      omega

theorem CallsAt.depth_add_taskSize_le {depth : Nat} {task inner : Task}
    {before inside : Evaluator} (reached : CallsAt depth task before inner inside) :
    depth + taskSize inner inside ≤ taskSize task before := by
  induction reached with
  | outermost task state => exact Nat.le_of_eq (Nat.zero_add _)
  | deeper depth outer middle inner before between inside _ calls ih =>
      have less := calls.taskSize_lt
      omega

theorem length_le_encodedSize (chars : List Char) : chars.length ≤ encodedSize chars := by
  induction chars with
  | nil => exact Nat.le_refl 0
  | cons character chars ih =>
      have bytes := character.utf8Size_pos
      rw [encodedSize_cons, List.length_cons]
      omega

theorem weight_le (token : Token) : weight token ≤ 1 := by
  unfold weight
  split
  · exact Nat.zero_le 1
  · exact Nat.le_refl 1

theorem size_le {evaluator : Evaluator} {line : String} (stands : evaluator.scanner.In line) :
    evaluator.size ≤ line.utf8ByteSize - evaluator.scanner.position + 1 := by
  have whole := stands.position_add
  have few := length_le_encodedSize evaluator.scanner.rest
  unfold size
  cases evaluator.pending with
  | none =>
      simp only
      omega
  | some token =>
      have light := weight_le token
      simp only
      omega

/-! ### Readings of a line -/

/-- Reading the phrase comes to an end, and wherever a phrase is read for it, however deep
inside, the scans for that phrase are noted and they are few. -/
structure ReadsSoon (evaluator : Evaluator) (nonterminal : Nonterminal) (line : String) :
    Prop where
  ends : ∀ depth task inside, CallsAt depth (.phrase nonterminal) evaluator task inside →
    depth ≤ 5 * (line.utf8ByteSize - evaluator.scanner.position) + 9
  scans : ∀ depth inner inside,
    CallsAt depth (.phrase nonterminal) evaluator (.phrase inner) inside →
    inside.scanner.position ≤ line.utf8ByteSize ∧
    ∃ scans, inside.scanner.GivesFew (line.utf8ByteSize - inside.scanner.position) scans
        (inside.read inner).2.scanner ∧
      (inside.read inner).2.journal.toList = inside.journal.toList ++ scans.map .scanned

theorem readsSoon_of_in {evaluator : Evaluator} {line : String}
    (stands : evaluator.scanner.In line) (nonterminal : Nonterminal) :
    evaluator.ReadsSoon nonterminal line where
  ends depth task inside reached := by
    have bound := reached.depth_add_taskSize_le
    have small := size_le stands
    have place := rank_le nonterminal
    simp only [taskSize, taskRank] at bound
    omega
  scans depth inner inside reached := by
    have standsInside := reached.stands stands
    have whole := standsInside.position_add
    obtain ⟨scans, gives, noted, ordinary⟩ := exists_scans_of_reads (reads_read inner inside)
    exact ⟨by omega, scans, standsInside.givesFew gives ordinary, noted⟩

/-- The scans for a new line are noted between its request and its outcome, and they are few.
Whether it is a whole line is decided without another scan. -/
structure ScansLine (evaluator : Evaluator) (line : String) : Prop where
  leading : ∃ scans, (Scanner.ofLine line).GivesFew line.utf8ByteSize scans
      (evaluator.readLeading line).2.scanner ∧
    (evaluator.readLeading line).2.journal.toList = evaluator.journal.toList ++
      .reading line :: (scans.map .scanned ++ [outcome line (evaluator.readLeading line).1])
  whole : (evaluator.readWhole line).2.scanner = (evaluator.readLeading line).2.scanner ∧
    (evaluator.readWhole line).2.journal = (evaluator.readLeading line).2.journal

theorem scansLine (evaluator : Evaluator) (line : String) : evaluator.ScansLine line where
  leading := by
    obtain ⟨scans, gives, noted, ordinary⟩ :=
      exists_scans_of_reads (reads_read .expression (evaluator.before line))
    exact ⟨scans, (Scanner.in_ofLine line).givesFew gives ordinary,
      evaluator.journal_readLeading line noted⟩
  whole := by
    obtain ⟨noted, decided⟩ := evaluator.readWhole_eq_of_readLeading line
    refine ⟨?_, noted⟩
    rcases found : evaluator.readLeading line with ⟨fault | value, after⟩
    · rw [evaluator.readWhole_of_rejected found]
    · rw [found] at decided
      obtain ⟨token, pending, _⟩ := decided
      rw [evaluator.readWhole_of_leading found, next_eq_of_pending pending]

/-! ### Any sequence of queries -/

def lineBehind (line : String) : Query → String
  | .leading next => next
  | .whole next => next
  | .phrase _ => line
  | .token => line

theorem in_serve {evaluator : Evaluator} {line : String} (stands : evaluator.scanner.In line)
    (query : Query) : (evaluator.serve query).2.scanner.In (lineBehind line query) := by
  have leading (next : String) : (evaluator.readLeading next).2.scanner.In next := by
    have stands : (evaluator.before next).scanner.In next := Scanner.in_ofLine next
    exact in_read stands .expression
  cases query with
  | leading next => exact leading next
  | whole next =>
      change (evaluator.readWhole next).2.scanner.In next
      rw [(evaluator.scansLine next).whole.1]
      exact leading next
  | phrase nonterminal => exact in_read stands nonterminal
  | token => exact in_next stands

theorem in_serveAll (queries : List Query) {evaluator : Evaluator} {line : String}
    (stands : evaluator.scanner.In line) :
    (evaluator.serveAll queries).2.scanner.In (queries.foldl lineBehind line) := by
  induction queries generalizing evaluator line with
  | nil => exact stands
  | cons query queries ih => exact ih (in_serve stands query)

/-- Whatever was asked before, reading a phrase comes to an end with few scans, and so does
reading another line, as far as it is an expression or as a whole. -/
theorem few_scans_after_queries (queries : List Query) :
    (∀ nonterminal, (Evaluator.empty.serveAll queries).2.ReadsSoon nonterminal
      (queries.foldl lineBehind "")) ∧
    ∀ line, ((Evaluator.empty.serveAll queries).2.before line).ReadsSoon .expression line ∧
      (Evaluator.empty.serveAll queries).2.ScansLine line := by
  have stands : (Evaluator.empty.serveAll queries).2.scanner.In (queries.foldl lineBehind "") :=
    in_serveAll queries (Scanner.in_ofLine "")
  refine ⟨readsSoon_of_in stands, fun line => ⟨?_, scansLine _ line⟩⟩
  exact readsSoon_of_in (Scanner.in_ofLine line) .expression

/-- As many scans as there can be: four, for three bytes, between the request and the outcome. -/
example : (Evaluator.empty.readWhole "1+2").2.journal.size = 6 := by
  decide +kernel

end Evaluator
end Abacus
