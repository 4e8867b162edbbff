/-
The outcome of a line without recursion.

The automaton goes once over the answers of a line.  It keeps a mode, which says what kind
of token it waits for, and the number of open parentheses, and it never looks at the value
of a number.  Its outcome is that of the evaluator, along the rules of reading.
-/

import Abacus.Proofs.Conservation

namespace Abacus
namespace Automaton

/-! ### The automaton -/

/-- What the automaton waits for: an operand that may have a minus in front, the
operand behind a minus, or what may follow an operand. -/
inductive Mode where
  | operand
  | afterMinus
  | operator
deriving DecidableEq

structure Configuration where
  mode : Mode
  depth : Nat
deriving DecidableEq

inductive Move where
  | goes (next : Configuration)
  | stops (outcome : Except Fault Unit)

def start : Configuration :=
  ⟨.operand, 0⟩

def moveOperand (depth : Nat) (token : Token) : Move :=
  match token.kind with
  | .number _ => .goes ⟨.operator, depth⟩
  | .openParen => .goes ⟨.operand, depth + 1⟩
  | _ => .stops (.error (.misplaced token))

def moveOutside (token : Token) : Move :=
  match token.kind with
  | .operator _ => .goes ⟨.operand, 0⟩
  | .lineEnd => .stops (.ok ())
  | .inputEnd => .stops (.ok ())
  | _ => .stops (.error (.misplaced token))

def moveInside (depth : Nat) (token : Token) : Move :=
  match token.kind with
  | .operator _ => .goes ⟨.operand, depth + 1⟩
  | .closeParen => .goes ⟨.operator, depth⟩
  | _ => .stops (.error (.unclosed token.offset))

def moveToken (configuration : Configuration) (token : Token) : Move :=
  match configuration.mode, configuration.depth with
  | .operand, depth =>
      if token.kind = .operator .minus then .goes ⟨.afterMinus, depth⟩
      else moveOperand depth token
  | .afterMinus, depth => moveOperand depth token
  | .operator, 0 => moveOutside token
  | .operator, depth + 1 => moveInside depth token

def move (configuration : Configuration) : Except Fault Token → Move
  | .ok token => moveToken configuration token
  | .error fault => .stops (.error fault)

/-- The outcome of the automaton on a list of answers, or nothing if the answers
end before it stops. -/
def run (configuration : Configuration) : List (Except Fault Token) → Option (Except Fault Unit)
  | [] => none
  | answer :: rest =>
      match move configuration answer with
      | .goes next => run next rest
      | .stops outcome => some outcome

theorem run_cons_of_goes {configuration next : Configuration} {answer : Except Fault Token}
    (goes : move configuration answer = .goes next) (rest : List (Except Fault Token)) :
    run configuration (answer :: rest) = run next rest := by
  simp only [run, goes]

theorem run_cons_of_stops {configuration : Configuration} {answer : Except Fault Token}
    {outcome : Except Fault Unit} (stops : move configuration answer = .stops outcome)
    (rest : List (Except Fault Token)) :
    run configuration (answer :: rest) = some outcome := by
  simp only [run, stops]

/-! ### Moves at the kinds of tokens -/

theorem moveToken_number {depth : Nat} {token : Token} {value : Binary64}
    (isNumber : token.kind = .number value) :
    moveToken ⟨.afterMinus, depth⟩ token = .goes ⟨.operator, depth⟩ := by
  simp only [moveToken, moveOperand, isNumber]

theorem moveToken_openParen {depth : Nat} {token : Token} (opens : token.kind = .openParen) :
    moveToken ⟨.afterMinus, depth⟩ token = .goes ⟨.operand, depth + 1⟩ := by
  simp only [moveToken, moveOperand, opens]

theorem moveToken_misplaced {depth : Nat} {token : Token}
    (notNumber : ∀ value, token.kind ≠ .number value) (notOpening : token.kind ≠ .openParen) :
    moveToken ⟨.afterMinus, depth⟩ token = .stops (.error (.misplaced token)) := by
  change moveOperand depth token = _
  unfold moveOperand
  split
  · next value is => exact absurd is (notNumber value)
  · next is => exact absurd is notOpening
  · rfl

theorem moveToken_minus {depth : Nat} {token : Token}
    (negates : token.kind = .operator .minus) :
    moveToken ⟨.operand, depth⟩ token = .goes ⟨.afterMinus, depth⟩ :=
  if_pos negates

theorem moveToken_operand {depth : Nat} {token : Token}
    (notMinus : token.kind ≠ .operator .minus) :
    moveToken ⟨.operand, depth⟩ token = moveToken ⟨.afterMinus, depth⟩ token :=
  if_neg notMinus

theorem moveToken_operator {depth : Nat} {token : Token} {operator : Operator}
    (is : token.kind = .operator operator) :
    moveToken ⟨.operator, depth⟩ token = .goes ⟨.operand, depth⟩ := by
  cases depth with
  | zero => simp only [moveToken, moveOutside, is]
  | succ depth => simp only [moveToken, moveInside, is]

theorem moveToken_closeParen {depth : Nat} {token : Token} (closes : token.kind = .closeParen) :
    moveToken ⟨.operator, depth + 1⟩ token = .goes ⟨.operator, depth⟩ := by
  simp only [moveToken, moveInside, closes]

theorem moveToken_unclosed {depth : Nat} {token : Token}
    (notOperator : ∀ operator, token.kind ≠ .operator operator)
    (notClosing : token.kind ≠ .closeParen) :
    moveToken ⟨.operator, depth + 1⟩ token = .stops (.error (.unclosed token.offset)) := by
  change moveInside depth token = _
  unfold moveInside
  split
  · next operator is => exact absurd is (notOperator operator)
  · next is => exact absurd is notClosing
  · rfl

theorem moveToken_outside {token : Token}
    (notOperator : ∀ operator, token.kind ≠ .operator operator) :
    moveToken ⟨.operator, 0⟩ token =
      .stops (if token.isTerminator then .ok () else .error (.misplaced token)) := by
  unfold moveToken moveOutside Token.isTerminator
  cases is : token.kind with
  | operator operator => exact absurd is (notOperator operator)
  | number value => rfl
  | openParen => rfl
  | closeParen => rfl
  | lineEnd => rfl
  | inputEnd => rfl

theorem moveToken_of_terminator {token : Token} (ends : token.isTerminator = true)
    (configuration : Configuration) :
    moveToken configuration token =
      match configuration.mode, configuration.depth with
      | .operator, 0 => .stops (.ok ())
      | .operator, _ + 1 => .stops (.error (.unclosed token.offset))
      | _, _ => .stops (.error (.misplaced token)) := by
  obtain ⟨mode, depth⟩ := configuration
  have which := (Token.isTerminator_iff token).mp ends
  cases mode with
  | operand => rcases which with is | is <;> simp [moveToken, moveOperand, is]
  | afterMinus => rcases which with is | is <;> simp [moveToken, moveOperand, is]
  | operator =>
      cases depth with
      | zero => rcases which with is | is <;> simp [moveToken, moveOutside, is]
      | succ depth => rcases which with is | is <;> simp [moveToken, moveInside, is]

theorem moveToken_terminator (configuration next : Configuration) {token : Token}
    (ends : token.isTerminator = true) : moveToken configuration token ≠ .goes next := by
  rw [moveToken_of_terminator ends]
  split <;> exact Move.noConfusion

/-! ### What a move says about the token -/

theorem cases_of_goes_operand {depth : Nat} {token : Token} {next : Configuration}
    (goes : moveToken ⟨.operand, depth⟩ token = .goes next) :
    (token.kind = .operator .minus ∧ next = ⟨.afterMinus, depth⟩) ∨
      moveToken ⟨.afterMinus, depth⟩ token = .goes next := by
  by_cases negates : token.kind = .operator .minus
  · rw [moveToken_minus negates] at goes
    cases goes
    exact Or.inl ⟨negates, rfl⟩
  · rw [moveToken_operand negates] at goes
    exact Or.inr goes

theorem cases_of_goes_afterMinus {depth : Nat} {token : Token} {next : Configuration}
    (goes : moveToken ⟨.afterMinus, depth⟩ token = .goes next) :
    (∃ value, token.kind = .number value ∧ next = ⟨.operator, depth⟩) ∨
      (token.kind = .openParen ∧ next = ⟨.operand, depth + 1⟩) := by
  by_cases isNumber : ∃ value, token.kind = .number value
  · obtain ⟨value, is⟩ := isNumber
    rw [moveToken_number is] at goes
    cases goes
    exact Or.inl ⟨value, is, rfl⟩
  · by_cases opens : token.kind = .openParen
    · rw [moveToken_openParen opens] at goes
      cases goes
      exact Or.inr ⟨opens, rfl⟩
    · have notNumber : ∀ value, token.kind ≠ .number value := by
        intro value is
        exact isNumber ⟨value, is⟩
      rw [moveToken_misplaced notNumber opens] at goes
      cases goes

theorem cases_of_goes_operator {depth : Nat} {token : Token} {next : Configuration}
    (goes : moveToken ⟨.operator, depth⟩ token = .goes next) :
    (∃ operator, token.kind = .operator operator ∧ next = ⟨.operand, depth⟩) ∨
      ∃ outer, depth = outer + 1 ∧ token.kind = .closeParen ∧ next = ⟨.operator, outer⟩ := by
  by_cases isOperator : ∃ operator, token.kind = .operator operator
  · obtain ⟨operator, is⟩ := isOperator
    rw [moveToken_operator is] at goes
    cases goes
    exact Or.inl ⟨operator, is, rfl⟩
  · have notOperator : ∀ operator, token.kind ≠ .operator operator := by
      intro operator is
      exact isOperator ⟨operator, is⟩
    cases depth with
    | zero =>
        rw [moveToken_outside notOperator] at goes
        cases goes
    | succ outer =>
        by_cases closes : token.kind = .closeParen
        · rw [moveToken_closeParen closes] at goes
          cases goes
          exact Or.inr ⟨outer, rfl, closes, rfl⟩
        · rw [moveToken_unclosed notOperator closes] at goes
          cases goes

theorem eq_of_accepts {configuration : Configuration} {token : Token}
    (accepts : moveToken configuration token = .stops (.ok ())) :
    configuration = ⟨.operator, 0⟩ ∧ token.isTerminator = true := by
  obtain ⟨mode, depth⟩ := configuration
  obtain ⟨kind, text, offset⟩ := token
  cases mode with
  | operand =>
      cases kind with
      | operator operator => cases operator <;> cases accepts
      | _ => cases accepts
  | afterMinus => cases kind <;> cases accepts
  | operator =>
      cases depth with
      | zero =>
          cases kind with
          | lineEnd => exact ⟨rfl, rfl⟩
          | inputEnd => exact ⟨rfl, rfl⟩
          | _ => cases accepts
      | succ depth => cases kind <;> cases accepts

/-! ### Runs on streams -/

/-- On some finite part of the stream the automaton stops with the outcome. -/
def Halts (configuration : Configuration) (stream : TokenStream)
    (outcome : Except Fault Unit) : Prop :=
  ∃ count, run configuration (stream.take count) = some outcome

theorem Halts.goes {configuration next : Configuration} {answer : Except Fault Token}
    {rest : TokenStream} {outcome : Except Fault Unit}
    (goes : move configuration answer = .goes next) (halts : Halts next rest outcome) :
    Halts configuration (.cons answer rest) outcome := by
  obtain ⟨count, stopped⟩ := halts
  refine ⟨count + 1, ?_⟩
  rw [Stream'.take_succ, Stream'.head_cons, Stream'.tail_cons, run_cons_of_goes goes]
  exact stopped

theorem Halts.stops {configuration : Configuration} {answer : Except Fault Token}
    {rest : TokenStream} {outcome : Except Fault Unit}
    (stops : move configuration answer = .stops outcome) :
    Halts configuration (.cons answer rest) outcome := by
  refine ⟨1, ?_⟩
  rw [Stream'.take_succ, Stream'.head_cons, run_cons_of_stops stops]

/-- At a token that is no minus it makes no difference whether a minus was there. -/
theorem Halts.operand {depth : Nat} {token : Token} {rest : TokenStream}
    {outcome : Except Fault Unit} (notMinus : token.kind ≠ .operator .minus)
    (halts : Halts ⟨.afterMinus, depth⟩ (.cons (.ok token) rest) outcome) :
    Halts ⟨.operand, depth⟩ (.cons (.ok token) rest) outcome := by
  obtain ⟨count, stopped⟩ := halts
  refine ⟨count, ?_⟩
  cases count with
  | zero => cases stopped
  | succ count =>
      rw [Stream'.take_succ, Stream'.head_cons] at stopped ⊢
      have same : move ⟨.operand, depth⟩ (.ok token) = move ⟨.afterMinus, depth⟩ (.ok token) :=
        moveToken_operand notMinus
      simp only [run, same] at stopped ⊢
      exact stopped

private theorem not_goes_of_last (configuration next : Configuration)
    (answer : Except Fault Token) (last : isLastAnswer answer = true) :
    move configuration answer ≠ .goes next := by
  cases answer with
  | error fault => exact Move.noConfusion
  | ok token =>
      have isEnd : token.kind = .inputEnd := of_decide_eq_true last
      have ends := (Token.isTerminator_iff token).mpr (Or.inr isEnd)
      exact moveToken_terminator configuration next ends

/-- The automaton never comes to the answers that repeat, so a list of answers is
enough for it. -/
theorem Halts.run_answers {configuration : Configuration} {scanner : Scanner}
    {outcome : Except Fault Unit} (halts : Halts configuration scanner.stream outcome) :
    run configuration scanner.answers = some outcome := by
  obtain ⟨count, stopped⟩ := halts
  induction count generalizing configuration scanner with
  | zero => cases stopped
  | succ count ih =>
      rw [Scanner.stream_eq, Stream'.take_succ, Stream'.head_cons, Stream'.tail_cons] at stopped
      cases moved : move configuration scanner.next.1 with
      | stops found =>
          rw [run_cons_of_stops moved] at stopped
          rw [Scanner.answers]
          split
          · rw [run_cons_of_stops moved, stopped]
          · rw [run_cons_of_stops moved, stopped]
      | goes next =>
          rw [run_cons_of_goes moved] at stopped
          have goesOn : isLastAnswer scanner.next.1 = false := by
            rw [← Bool.not_eq_true]
            intro last
            exact not_goes_of_last configuration next _ last moved
          rw [scanner.answers_of_not_last goesOn, run_cons_of_goes moved]
          exact ih stopped

/-! ### The automaton follows every reading -/

def modeOf : Task → Mode
  | .phrase .atom => .afterMinus
  | .phrase _ => .operand
  | .links _ _ => .operator

/-- Where a task finds a value, the automaton comes to stand behind an operand at the
same depth; where it fails, the automaton stops with the same fault. -/
def Follows (task : Task) (before after : TokenStream) : Except Fault Binary64 → Prop
  | .ok _ =>
      ∀ depth outcome, Halts ⟨.operator, depth⟩ after outcome →
        Halts ⟨modeOf task, depth⟩ before outcome
  | .error fault => ∀ depth, Halts ⟨modeOf task, depth⟩ before (.error fault)

private theorem Follows.trans {task first rest : Task} {before inside after : TokenStream}
    {value : Binary64} {answer : Except Fault Binary64}
    (followsFirst : Follows first before inside (.ok value))
    (followsRest : Follows rest inside after answer) (starts : modeOf task = modeOf first)
    (goesOn : modeOf rest = .operator) : Follows task before after answer := by
  cases answer with
  | error fault =>
      intro depth
      rw [starts]
      have halts := followsRest depth
      rw [goesOn] at halts
      exact followsFirst depth _ halts
  | ok result =>
      intro depth outcome halts
      have halted := followsRest depth outcome halts
      rw [goesOn] at halted
      rw [starts]
      exact followsFirst depth outcome halted

private theorem Follows.step {task first : Task} {inside after : TokenStream} {token : Token}
    {answer : Except Fault Binary64} (followsFirst : Follows first inside after answer)
    (goes : ∀ depth, moveToken ⟨modeOf task, depth⟩ token = .goes ⟨modeOf first, depth⟩) :
    Follows task (.cons (.ok token) inside) after answer := by
  cases answer with
  | error fault =>
      intro depth
      exact Halts.goes (goes depth) (followsFirst depth)
  | ok result =>
      intro depth outcome halts
      exact Halts.goes (goes depth) (followsFirst depth outcome halts)

private theorem Halts.opening {depth : Nat} {opening : Token} {inside : TokenStream}
    {outcome : Except Fault Unit} (opens : opening.kind = .openParen)
    (halts : Halts ⟨.operand, depth + 1⟩ inside outcome) :
    Halts ⟨.afterMinus, depth⟩ (.cons (.ok opening) inside) outcome :=
  Halts.goes (moveToken_openParen opens) halts

theorem modeOf_part (level : Level) : modeOf (.phrase level.part) = .operand := by
  cases level <;> rfl

theorem moveToken_joint {level : Level} {joint : Token} {operator : Operator}
    (joins : joint.kind.joint? level = some operator) (depth : Nat) :
    moveToken ⟨.operator, depth⟩ joint = .goes ⟨modeOf (.phrase level.part), depth⟩ := by
  rw [modeOf_part level]
  exact moveToken_operator ((Kind.joint?_eq_some_iff level joint.kind operator).mp joins).1

end Automaton

open Automaton in
theorem Reads.follows {task : Task} {before after : TokenStream}
    {answer : Except Fault Binary64}
    (reads : Reads TokenStream.source task before answer after) :
    Follows task before after answer := by
  -- one case for each rule: a value hands the run on, a fault is where it stops
  induction reads with
  | fault task before after found takes answered =>
      intro depth
      rw [TokenStream.eq_cons_of_next answered]
      exact Halts.stops rfl
  | number before after token value answered isNumber =>
      intro depth outcome halts
      rw [TokenStream.eq_cons_of_next answered]
      exact Halts.goes (moveToken_number isNumber) halts
  | misplaced before after token answered notNumber notOpening =>
      intro depth
      rw [TokenStream.eq_cons_of_next answered]
      exact Halts.stops (moveToken_misplaced notNumber notOpening)
  | insideFault before inside after opening found answered opens _ ih =>
      intro depth
      rw [TokenStream.eq_cons_of_next answered]
      exact Halts.opening opens (ih (depth + 1))
  | closingFault before inside behind after opening value found answered opens _ closed ih =>
      intro depth
      rw [TokenStream.eq_cons_of_next answered]
      apply Halts.opening opens
      apply ih (depth + 1)
      rw [TokenStream.eq_cons_of_next closed]
      exact Halts.stops rfl
  | group before inside behind after opening closing value answered opens _ closed closes ih =>
      intro depth outcome halts
      rw [TokenStream.eq_cons_of_next answered]
      apply Halts.opening opens
      apply ih (depth + 1)
      rw [TokenStream.eq_cons_of_next closed]
      exact Halts.goes (moveToken_closeParen closes) halts
  | unclosed before inside behind after opening closing value answered opens read closed other
      ih =>
      intro depth
      rw [TokenStream.eq_cons_of_next answered]
      apply Halts.opening opens
      apply ih (depth + 1)
      -- the expression inside was read as far as it goes, so no operator stands here
      obtain ⟨token, first, notOperator⟩ := read.notOperator_behind
      rw [TokenStream.eq_cons_of_next closed] at first ⊢
      cases first
      exact Halts.stops (moveToken_unclosed notOperator other)
  | negated before inside after minus answer answered negates _ ih =>
      rw [TokenStream.eq_cons_of_next answered]
      have follows : Follows (.phrase .primary) (.cons (.ok minus) inside) after answer :=
        Follows.step ih (fun depth => moveToken_minus negates)
      cases answer with
      | error fault => exact follows
      | ok value => exact follows
  | plain before inside after token answer answered notMinus _ ih =>
      rw [TokenStream.eq_cons_of_next answered]
      cases answer with
      | error fault =>
          intro depth
          exact Halts.operand notMinus (ih depth)
      | ok value =>
          intro depth outcome halts
          exact Halts.operand notMinus (ih depth outcome halts)
  | chainFault level before after found _ ih =>
      intro depth
      have halts := ih depth
      rw [modeOf_part level] at halts
      exact halts
  | chain level before inside after value answer _ _ ihFirst ihMore =>
      exact Follows.trans ihFirst ihMore (modeOf_part level).symm rfl
  | stop level value before after token answered stops =>
      intro depth outcome halts
      rw [TokenStream.eq_cons_of_next answered]
      exact halts
  | partFault level value before inside after joint operator found answered joins _ ih =>
      rw [TokenStream.eq_cons_of_next answered]
      exact Follows.step ih (moveToken_joint joins)
  | joined level value right before inside behind after joint operator answer answered joins
      _ _ ihRead ihMore =>
      rw [TokenStream.eq_cons_of_next answered]
      have part : Follows (.links level value) (.cons (.ok joint) inside) behind (.ok right) :=
        Follows.step ihRead (moveToken_joint joins)
      exact Follows.trans part ihMore rfl rfl

namespace Automaton

/-! ### Whole lines -/

private theorem halts_readWhole (evaluator : Evaluator) (line : String) :
    Halts start (Scanner.ofLine line).stream
      ((evaluator.readWhole line).1.map fun _ => ()) := by
  have reads := Evaluator.reads_stream .expression (evaluator.before line)
  have follows := reads.follows
  rw [Evaluator.stream_before] at follows
  rw [Evaluator.readWhole_fst]
  rcases found : (evaluator.before line).read .expression with ⟨fault | value, after⟩
  · rw [found] at follows
    exact follows 0
  · rw [found] at follows reads
    obtain ⟨token, first, notOperator⟩ := reads.notOperator_behind
    have behind := Evaluator.stream_next after
    rw [behind, Stream'.head_cons] at first
    simp only [first]
    apply follows 0
    rw [behind, first]
    apply Halts.stops
    refine (moveToken_outside notOperator).trans ?_
    cases token.isTerminator <;> rfl

/-- The outcome of a line is the same for every evaluator, and the automaton finds it. -/
theorem run_readWhole (evaluator : Evaluator) (line : String) :
    run start (Scanner.ofLine line).answers =
      some ((evaluator.readWhole line).1.map fun _ => ()) :=
  (halts_readWhole evaluator line).run_answers

theorem run_evaluate (line : String) :
    run start (Scanner.ofLine line).answers = some ((evaluate line).map fun _ => ()) :=
  run_readWhole Evaluator.empty line

/-! ### The values of numbers -/

end Automaton

def Token.revalued (values : Token → Binary64) (token : Token) : Token :=
  match token.kind with
  | .number _ => { token with kind := .number (values token) }
  | _ => token

namespace Automaton

private theorem moveToken_revalued (values : Token → Binary64) (configuration : Configuration)
    (token : Token) :
    moveToken configuration (token.revalued values) = moveToken configuration token := by
  obtain ⟨mode, depth⟩ := configuration
  obtain ⟨kind, text, offset⟩ := token
  cases kind with
  | number value =>
      cases mode with
      | operand => rfl
      | afterMinus => rfl
      | operator => cases depth <;> rfl
  | operator operator => rfl
  | openParen => rfl
  | closeParen => rfl
  | lineEnd => rfl
  | inputEnd => rfl

private theorem run_revalued (values : Token → Binary64) (configuration : Configuration)
    (answers : List (Except Fault Token)) :
    run configuration (answers.map (Except.map (Token.revalued values))) =
      run configuration answers := by
  induction answers generalizing configuration with
  | nil => rfl
  | cons answer rest ih =>
      have same : move configuration (answer.map (Token.revalued values)) =
          move configuration answer := by
        cases answer with
        | error fault => rfl
        | ok token => exact moveToken_revalued values configuration token
      simp only [List.map_cons, run, same, ih]

/-- A line has a value exactly where the automaton accepts it, and otherwise its fault
is the one that the automaton stops with.  The values of the numbers make no
difference to that. -/
theorem run_eq_outcome_of_evaluate (line : String) :
    run start (Scanner.ofLine line).answers = some ((evaluate line).map fun _ => ()) ∧
      ∀ values : Token → Binary64,
        run start ((Scanner.ofLine line).answers.map (Except.map (Token.revalued values))) =
          some ((evaluate line).map fun _ => ()) := by
  refine ⟨run_evaluate line, ?_⟩
  intro values
  rw [run_revalued]
  exact run_evaluate line

end Automaton
end Abacus
