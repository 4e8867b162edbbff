/-
Queries to an evaluator, and other machines that answer them.

The rules of reading leave a machine no choice.  If its states can be related to those of the
evaluator in such a way that both give out the same tokens, then it gives the responses of
the evaluator to any queries in a row.
-/

import Abacus.Proofs.Reading

namespace Abacus

/-! ### Queries -/

inductive Query where
  | leading (line : String)
  | whole (line : String)
  | phrase (nonterminal : Nonterminal)
  | token
deriving DecidableEq

inductive Response where
  | value (answer : Except Fault Binary64)
  | token (answer : Except Fault Token)

def Evaluator.serve (evaluator : Evaluator) : Query → Response × Evaluator
  | .leading line =>
      let reading := evaluator.readLeading line
      (.value reading.1, reading.2)
  | .whole line =>
      let reading := evaluator.readWhole line
      (.value reading.1, reading.2)
  | .phrase nonterminal =>
      let reading := evaluator.read nonterminal
      (.value reading.1, reading.2)
  | .token =>
      let answer := evaluator.next
      (.token answer.1, answer.2)

def Evaluator.serveAll (evaluator : Evaluator) : List Query → List Response × Evaluator
  | [] => ([], evaluator)
  | query :: rest =>
      let first := evaluator.serve query
      let others := first.2.serveAll rest
      (first.1 :: others.1, others.2)

/-! ### Machines that read -/

structure Machine (State : Type) extends Source State where
  onLine : State → String → State

/-- A line whose expression has the value is a whole one if this answer follows. -/
def closing (value : Binary64) : Except Fault Token → Except Fault Binary64
  | .error fault => .error fault
  | .ok token => if token.isTerminator then .ok value else .error (.misplaced token)

inductive Serves {State : Type} (machine : Machine State) :
    Query → State → Response → State → Prop where
  | leading (line : String) (before after : State) (answer : Except Fault Binary64)
      (read : Reads machine.toSource (.phrase .expression) (machine.onLine before line)
        answer after) :
      Serves machine (.leading line) before (.value answer) after
  | rejected (line : String) (before after : State) (fault : Fault)
      (read : Reads machine.toSource (.phrase .expression) (machine.onLine before line)
        (.error fault) after) :
      Serves machine (.whole line) before (.value (.error fault)) after
  | whole (line : String) (before inside : State) (value : Binary64)
      (read : Reads machine.toSource (.phrase .expression) (machine.onLine before line)
        (.ok value) inside) :
      Serves machine (.whole line) before (.value (closing value (machine.next inside).1))
        (machine.next inside).2
  | phrase (nonterminal : Nonterminal) (before after : State) (answer : Except Fault Binary64)
      (read : Reads machine.toSource (.phrase nonterminal) before answer after) :
      Serves machine (.phrase nonterminal) before (.value answer) after
  | token (before : State) :
      Serves machine .token before (.token (machine.next before).1) (machine.next before).2

inductive ServesAll {State : Type} (machine : Machine State) :
    List Query → State → List Response → State → Prop where
  | done (state : State) : ServesAll machine [] state [] state
  | more (query : Query) (queries : List Query) (before inside after : State)
      (response : Response) (responses : List Response)
      (first : Serves machine query before response inside)
      (rest : ServesAll machine queries inside responses after) :
      ServesAll machine (query :: queries) before (response :: responses) after

/-! ### Every machine gives one response -/

section

variable {State : Type}

/-- What becomes of an atom when this has been read behind its opening parenthesis. -/
def Source.close (source : Source State) :
    Except Fault Binary64 × State → Except Fault Binary64 × State
  | (.error found, behind) => (.error found, behind)
  | (.ok value, behind) =>
      match source.next behind with
      | (.error found, after) => (.error found, after)
      | (.ok closing, after) =>
          (if closing.kind = .closeParen then .ok value else .error (.unclosed closing.offset),
            after)

/-- What a reading that ends with `result` has to be.  All that the rules ask is the next
answer of the source; a chain begins with its first part instead. -/
def Source.Asks (source : Source State) (task : Task) (before : State)
    (result : Except Fault Binary64 × State) : Prop :=
  match task with
  | .phrase .atom =>
      match source.next before with
      | (.error found, inside) => result = (.error found, inside)
      | (.ok token, inside) =>
          match token.kind with
          | .number value => result = (.ok value, inside)
          | .openParen =>
              ∃ answer behind, Reads source (.phrase .expression) inside answer behind ∧
                result = source.close (answer, behind)
          | _ => result = (.error (.misplaced token), inside)
  | .phrase .primary =>
      match source.next before with
      | (.error found, inside) => result = (.error found, inside)
      | (.ok token, inside) =>
          if token.kind = .operator .minus then
            ∃ answer behind, Reads source (.phrase .atom) inside answer behind ∧
              result = (answer.map (- ·), behind)
          else Reads source (.phrase .atom) (source.putBack inside token) result.1 result.2
  | .phrase (.chain level) =>
      ∃ answer behind, Reads source (.phrase level.part) before answer behind ∧
        match answer with
        | .error found => result = (.error found, behind)
        | .ok value => Reads source (.links level value) behind result.1 result.2
  | .links level value =>
      match source.next before with
      | (.error found, inside) => result = (.error found, inside)
      | (.ok token, inside) =>
          match token.kind.joint? level with
          | none => result = (.ok value, source.putBack inside token)
          | some operator =>
              ∃ answer behind, Reads source (.phrase level.part) inside answer behind ∧
                match answer with
                | .error found => result = (.error found, behind)
                | .ok right =>
                    Reads source (.links level (operator.apply value right)) behind
                      result.1 result.2

variable {source : Source State} {task : Task} {before after after' : State}
  {answer answer' : Except Fault Binary64}

theorem Source.asks_of_fault {inside : State} {found : Fault} (takes : task.takesFirst = true)
    (answered : source.next before = (.error found, inside))
    {result : Except Fault Binary64 × State} :
    source.Asks task before result ↔ result = (.error found, inside) := by
  cases task with
  | links level value => simp only [Asks, answered]
  | phrase nonterminal =>
      cases nonterminal with
      | atom => simp only [Asks, answered]
      | primary => simp only [Asks, answered]
      | chain level => cases takes

/-- The next answer fixes the rule. -/
theorem Reads.asks (reads : Reads source task before answer after) :
    source.Asks task before (answer, after) := by
  cases reads with
  | fault task before after found takes answered => exact (Source.asks_of_fault takes answered).mpr rfl
  | number before after token value answered isNumber =>
      simp only [Source.Asks, answered, isNumber]
  | misplaced before after token answered notNumber notOpening =>
      simp only [Source.Asks, answered]
  | insideFault before inside after opening found answered opens failed =>
      simp only [Source.Asks, answered, opens]
      exact ⟨_, _, failed, rfl⟩
  | closingFault before inside behind after opening value found answered opens read closed =>
      simp only [Source.Asks, answered, opens]
      exact ⟨_, _, read, by simp only [Source.close, closed]⟩
  | group before inside behind after opening closing value answered opens read closed closes =>
      simp only [Source.Asks, answered, opens]
      exact ⟨_, _, read, by simp only [Source.close, closed, if_pos closes]⟩
  | unclosed before inside behind after opening closing value answered opens read closed other =>
      simp only [Source.Asks, answered, opens]
      exact ⟨_, _, read, by simp only [Source.close, closed, if_neg other]⟩
  | negated before inside after minus answer answered negates read =>
      simp only [Source.Asks, answered, if_pos negates]
      exact ⟨answer, after, read, rfl⟩
  | plain before inside after token answer answered notMinus read =>
      simp only [Source.Asks, answered, if_neg notMinus]
      exact read
  | chainFault level before after found failed => exact ⟨_, _, failed, rfl⟩
  | chain level before inside after value answer first more => exact ⟨_, _, first, more⟩
  | stop level value before after token answered stops =>
      simp only [Source.Asks, answered, stops]
  | partFault level value before inside after joint operator found answered joins failed =>
      simp only [Source.Asks, answered, joins]
      exact ⟨_, _, failed, rfl⟩
  | joined level value right before inside behind after joint operator answer answered joins
      read more =>
      simp only [Source.Asks, answered, joins]
      exact ⟨_, _, read, more⟩

/-- A reading leaves no choice to what its rule asks: the parts of both are the same by
induction. -/
theorem Reads.eq_of_asks (reads : Reads source task before answer after)
    {result : Except Fault Binary64 × State} (asked : source.Asks task before result) :
    result = (answer, after) := by
  induction reads generalizing result with
  | fault task before after found takes answered =>
      exact (Source.asks_of_fault takes answered).mp asked
  | number before after token value answered isNumber =>
      simpa only [Source.Asks, answered, isNumber] using asked
  | misplaced before after token answered notNumber notOpening =>
      simpa only [Source.Asks, answered] using asked
  | insideFault before inside after opening found answered opens _ ih =>
      simp only [Source.Asks, answered, opens] at asked
      obtain ⟨answer', behind', read', rfl⟩ := asked
      rw [ih read'.asks, Source.close]
  | closingFault before inside behind after opening value found answered opens _ closed ih =>
      simp only [Source.Asks, answered, opens] at asked
      obtain ⟨answer', behind', read', rfl⟩ := asked
      rw [ih read'.asks, Source.close, closed]
  | group before inside behind after opening closing value answered opens _ closed closes ih =>
      simp only [Source.Asks, answered, opens] at asked
      obtain ⟨answer', behind', read', rfl⟩ := asked
      simp only [ih read'.asks, Source.close, closed, if_pos closes]
  | unclosed before inside behind after opening closing value answered opens _ closed differs ih =>
      simp only [Source.Asks, answered, opens] at asked
      obtain ⟨answer', behind', read', rfl⟩ := asked
      simp only [ih read'.asks, Source.close, closed, if_neg differs]
  | negated before inside after minus answer answered negates _ ih =>
      simp only [Source.Asks, answered, if_pos negates] at asked
      obtain ⟨answer', behind', read', rfl⟩ := asked
      cases ih read'.asks
      rfl
  | plain before inside after token answer answered notMinus _ ih =>
      simp only [Source.Asks, answered, if_neg notMinus] at asked
      exact ih asked.asks
  | chainFault level before after found _ ih =>
      obtain ⟨answer', behind', read', same⟩ := asked
      cases ih read'.asks
      exact same
  | chain level before inside after value answer _ _ ihFirst ihMore =>
      obtain ⟨answer', behind', read', more'⟩ := asked
      cases ihFirst read'.asks
      exact ihMore more'.asks
  | stop level value before after token answered stops =>
      simpa only [Source.Asks, answered, stops] using asked
  | partFault level value before inside after joint operator found answered joins _ ih =>
      simp only [Source.Asks, answered, joins] at asked
      obtain ⟨answer', behind', read', same⟩ := asked
      cases ih read'.asks
      exact same
  | joined level value right before inside behind after joint operator answer answered joins
      _ _ ihRead ihMore =>
      simp only [Source.Asks, answered, joins] at asked
      obtain ⟨answer', behind', read', more'⟩ := asked
      cases ihRead read'.asks
      exact ihMore more'.asks

theorem Reads.unique (reads : Reads source task before answer after)
    (other : Reads source task before answer' after') : answer = answer' ∧ after = after' := by
  obtain ⟨rfl, rfl⟩ := Prod.mk.inj (reads.eq_of_asks other.asks)
  exact ⟨rfl, rfl⟩

end

section

variable {State : Type} {machine : Machine State}

theorem Serves.unique {query : Query} {before after after' : State}
    {response response' : Response} (serves : Serves machine query before response after)
    (other : Serves machine query before response' after') :
    response = response' ∧ after = after' := by
  cases serves with
  | leading line before after answer read =>
      cases other with
      | leading _ _ _ _ read' =>
          obtain ⟨rfl, rfl⟩ := read.unique read'
          exact ⟨rfl, rfl⟩
  | rejected line before after fault read =>
      cases other with
      | rejected _ _ _ _ read' =>
          obtain ⟨same, rfl⟩ := read.unique read'
          cases same
          exact ⟨rfl, rfl⟩
      | whole _ _ _ _ read' => cases (read.unique read').1
  | whole line before inside value read =>
      cases other with
      | rejected _ _ _ _ read' => cases (read.unique read').1
      | whole _ _ _ _ read' =>
          obtain ⟨same, rfl⟩ := read.unique read'
          cases same
          exact ⟨rfl, rfl⟩
  | phrase nonterminal before after answer read =>
      cases other with
      | phrase _ _ _ _ read' =>
          obtain ⟨rfl, rfl⟩ := read.unique read'
          exact ⟨rfl, rfl⟩
  | token before =>
      cases other
      exact ⟨rfl, rfl⟩

theorem ServesAll.unique {queries : List Query} {before after after' : State}
    {responses responses' : List Response}
    (serves : ServesAll machine queries before responses after)
    (other : ServesAll machine queries before responses' after') :
    responses = responses' ∧ after = after' := by
  induction serves generalizing responses' after' with
  | done state =>
      cases other
      exact ⟨rfl, rfl⟩
  | more query queries before inside after response responses first _ ih =>
      cases other with
      | more _ _ _ _ _ _ _ first' rest' =>
          obtain ⟨rfl, rfl⟩ := first.unique first'
          obtain ⟨rfl, rfl⟩ := ih rest'
          exact ⟨rfl, rfl⟩

end

/-! ### Machines that follow the evaluator -/

/-- Related states answer alike and stay related; what the journal notes makes no
difference. -/
structure Machine.Follows {State : Type} (machine : Machine State)
    (Related : Evaluator → State → Prop) : Prop where
  agrees : Evaluator.source.Agrees machine.toSource Related
  onLine : ∀ evaluator state line, Related evaluator state →
    Related (evaluator.onLine line) (machine.onLine state line)
  note : ∀ evaluator state event, Related evaluator state → Related (evaluator.note event) state

theorem Evaluator.readWhole_of_rejected (evaluator : Evaluator) {line : String} {fault : Fault}
    {after : Evaluator} (found : evaluator.readLeading line = (.error fault, after)) :
    evaluator.readWhole line = (.error fault, after) := by
  simp only [readWhole, found]

theorem Evaluator.readWhole_of_leading (evaluator : Evaluator) {line : String} {value : Binary64}
    {after : Evaluator} (found : evaluator.readLeading line = (.ok value, after)) :
    evaluator.readWhole line = (closing value after.next.1, after.next.2) := by
  simp only [readWhole, found]
  rcases after.next with ⟨fault | token, last⟩
  · rfl
  · rfl

section

variable {State : Type} {machine : Machine State} {Related : Evaluator → State → Prop}

private theorem Machine.Follows.leading (follows : machine.Follows Related)
    {evaluator : Evaluator} {state : State} (related : Related evaluator state) (line : String) :
    ∃ after, Reads machine.toSource (.phrase .expression) (machine.onLine state line)
        (evaluator.readLeading line).1 after ∧
      Related (evaluator.readLeading line).2 after := by
  have before := follows.onLine _ _ line (follows.note _ _ (.reading line) related)
  obtain ⟨after, reads, still⟩ :=
    (Evaluator.reads_read .expression (evaluator.before line)).transfer follows.agrees before
  exact ⟨after, reads, follows.note _ _ _ still⟩

theorem Machine.Follows.serves (follows : machine.Follows Related) {evaluator : Evaluator}
    {state : State} (related : Related evaluator state) (query : Query) :
    ∃ after, Serves machine query state (evaluator.serve query).1 after ∧
      Related (evaluator.serve query).2 after := by
  cases query with
  | leading line =>
      obtain ⟨after, reads, still⟩ := follows.leading related line
      exact ⟨after, .leading line state after _ reads, still⟩
  | whole line =>
      obtain ⟨inside, reads, still⟩ := follows.leading related line
      rcases found : evaluator.readLeading line with ⟨fault | value, between⟩
      · rw [found] at reads still
        simp only [Evaluator.serve, evaluator.readWhole_of_rejected found]
        exact ⟨inside, .rejected line state inside fault reads, still⟩
      · rw [found] at reads still
        obtain ⟨same, stillNext⟩ := follows.agrees.next between inside still
        have serves := Serves.whole line state inside value reads
        rw [← same] at serves
        simp only [Evaluator.serve, evaluator.readWhole_of_leading found]
        exact ⟨_, serves, stillNext⟩
  | phrase nonterminal =>
      obtain ⟨after, reads, still⟩ :=
        (Evaluator.reads_read nonterminal evaluator).transfer follows.agrees related
      exact ⟨after, .phrase nonterminal state after _ reads, still⟩
  | token =>
      obtain ⟨same, still⟩ := follows.agrees.next evaluator state related
      have serves : Serves machine .token state _ _ := Serves.token state
      rw [← same] at serves
      exact ⟨_, serves, still⟩

theorem Machine.Follows.servesAll (follows : machine.Follows Related) {evaluator : Evaluator}
    {state : State} (related : Related evaluator state) (queries : List Query) :
    ∃ after, ServesAll machine queries state (evaluator.serveAll queries).1 after ∧
      Related (evaluator.serveAll queries).2 after := by
  induction queries generalizing evaluator state with
  | nil => exact ⟨state, .done state, related⟩
  | cons query queries ih =>
      obtain ⟨inside, first, still⟩ := follows.serves related query
      obtain ⟨after, rest, last⟩ := ih still
      exact ⟨after, .more query queries state inside after _ _ first rest, last⟩

end

end Abacus
