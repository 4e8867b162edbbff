/-
Reading as a relation between states.

Reading a phrase needs two things of its surroundings: the next token, and a place to put a
token back.  The evaluator offers both, and so does a stream of answers.  What the evaluator
does with its scanner, its pending token and its journal is what the same rules do with the
stream of its answers.
-/

import Abacus.Evaluator.Line
import Abacus.Proofs.TokenStream

namespace Abacus

structure Source (State : Type) where
  next : State → Except Fault Token × State
  putBack : State → Token → State

/-- What is being read: a phrase, or what follows a chain whose value so far is known. -/
inductive Task where
  | phrase (nonterminal : Nonterminal)
  | links (level : Level) (value : Binary64)

def Task.takesFirst : Task → Bool
  | .phrase (.chain _) => false
  | _ => true

/-- One rule for each way in which a reading goes on or ends. -/
inductive Reads {State : Type} (source : Source State) :
    Task → State → Except Fault Binary64 → State → Prop where
  | fault (task : Task) (before after : State) (found : Fault)
      (takes : task.takesFirst = true)
      (answered : source.next before = (.error found, after)) :
      Reads source task before (.error found) after
  | number (before after : State) (token : Token) (value : Binary64)
      (answered : source.next before = (.ok token, after))
      (isNumber : token.kind = .number value) :
      Reads source (.phrase .atom) before (.ok value) after
  | misplaced (before after : State) (token : Token)
      (answered : source.next before = (.ok token, after))
      (notNumber : ∀ value, token.kind ≠ .number value)
      (notOpening : token.kind ≠ .openParen) :
      Reads source (.phrase .atom) before (.error (.misplaced token)) after
  | insideFault (before inside after : State) (opening : Token) (found : Fault)
      (answered : source.next before = (.ok opening, inside))
      (opens : opening.kind = .openParen)
      (failed : Reads source (.phrase .expression) inside (.error found) after) :
      Reads source (.phrase .atom) before (.error found) after
  | closingFault (before inside behind after : State) (opening : Token) (value : Binary64)
      (found : Fault)
      (answered : source.next before = (.ok opening, inside))
      (opens : opening.kind = .openParen)
      (read : Reads source (.phrase .expression) inside (.ok value) behind)
      (closed : source.next behind = (.error found, after)) :
      Reads source (.phrase .atom) before (.error found) after
  | group (before inside behind after : State) (opening closing : Token) (value : Binary64)
      (answered : source.next before = (.ok opening, inside))
      (opens : opening.kind = .openParen)
      (read : Reads source (.phrase .expression) inside (.ok value) behind)
      (closed : source.next behind = (.ok closing, after))
      (closes : closing.kind = .closeParen) :
      Reads source (.phrase .atom) before (.ok value) after
  | unclosed (before inside behind after : State) (opening closing : Token) (value : Binary64)
      (answered : source.next before = (.ok opening, inside))
      (opens : opening.kind = .openParen)
      (read : Reads source (.phrase .expression) inside (.ok value) behind)
      (closed : source.next behind = (.ok closing, after))
      (other : closing.kind ≠ .closeParen) :
      Reads source (.phrase .atom) before (.error (.unclosed closing.offset)) after
  | negated (before inside after : State) (minus : Token) (answer : Except Fault Binary64)
      (answered : source.next before = (.ok minus, inside))
      (negates : minus.kind = .operator .minus)
      (read : Reads source (.phrase .atom) inside answer after) :
      Reads source (.phrase .primary) before (answer.map (- ·)) after
  | plain (before inside after : State) (token : Token) (answer : Except Fault Binary64)
      (answered : source.next before = (.ok token, inside))
      (notMinus : token.kind ≠ .operator .minus)
      (read : Reads source (.phrase .atom) (source.putBack inside token) answer after) :
      Reads source (.phrase .primary) before answer after
  | chainFault (level : Level) (before after : State) (found : Fault)
      (failed : Reads source (.phrase level.part) before (.error found) after) :
      Reads source (.phrase (.chain level)) before (.error found) after
  | chain (level : Level) (before inside after : State) (value : Binary64)
      (answer : Except Fault Binary64)
      (first : Reads source (.phrase level.part) before (.ok value) inside)
      (more : Reads source (.links level value) inside answer after) :
      Reads source (.phrase (.chain level)) before answer after
  | stop (level : Level) (value : Binary64) (before after : State) (token : Token)
      (answered : source.next before = (.ok token, after))
      (stops : token.kind.joint? level = none) :
      Reads source (.links level value) before (.ok value) (source.putBack after token)
  | partFault (level : Level) (value : Binary64) (before inside after : State) (joint : Token)
      (operator : Operator) (found : Fault)
      (answered : source.next before = (.ok joint, inside))
      (joins : joint.kind.joint? level = some operator)
      (failed : Reads source (.phrase level.part) inside (.error found) after) :
      Reads source (.links level value) before (.error found) after
  | joined (level : Level) (value right : Binary64) (before inside behind after : State)
      (joint : Token) (operator : Operator) (answer : Except Fault Binary64)
      (answered : source.next before = (.ok joint, inside))
      (joins : joint.kind.joint? level = some operator)
      (read : Reads source (.phrase level.part) inside (.ok right) behind)
      (more : Reads source (.links level (operator.apply value right)) behind answer after) :
      Reads source (.links level value) before answer after

/-! ### The evaluator -/

namespace Evaluator

def source : Source Evaluator :=
  { next := next
    putBack := putBack }

private theorem size_next_lt (evaluator after : Evaluator) (token : Token) (kind : Kind)
    (answered : evaluator.next = (.ok token, after)) (other : kind ≠ .inputEnd)
    (is : token.kind = kind) : after.size < evaluator.size := by
  have bound := size_after evaluator after token answered
  rw [weight_of_kind token kind other is] at bound
  exact bound

private theorem size_putBack_le (evaluator after : Evaluator) (token : Token)
    (answered : evaluator.next = (.ok token, after)) :
    (after.putBack token).size ≤ evaluator.size :=
  (next_of_token evaluator after token answered).2

private theorem size_read_le_of_eq (evaluator after : Evaluator) (nonterminal : Nonterminal)
    (answer : Except Fault Binary64) (found : evaluator.read nonterminal = (answer, after)) :
    after.size ≤ evaluator.size := by
  have bound := size_read_le evaluator nonterminal
  rw [found] at bound
  exact bound

def ReadFollows (nonterminal : Nonterminal) (evaluator : Evaluator) : Prop :=
  Reads source (.phrase nonterminal) evaluator
    (evaluator.read nonterminal).1 (evaluator.read nonterminal).2

def ContinueFollows (level : Level) (value : Binary64) (evaluator : Evaluator) : Prop :=
  Reads source (.links level value) evaluator
    (evaluator.continueChain level value).1 (evaluator.continueChain level value).2

private theorem follows_atom (evaluator : Evaluator)
    (smaller : ∀ inside : Evaluator, inside.size < evaluator.size →
      ReadFollows .expression inside) :
    ReadFollows .atom evaluator := by
  unfold ReadFollows
  rw [read_atom]
  rcases answered : evaluator.next with ⟨found | token, inside⟩
  · exact Reads.fault _ evaluator inside found rfl answered
  · cases is : token.kind with
    | number value =>
        simp only [is]
        exact Reads.number evaluator inside token value answered is
    | openParen =>
        have read := smaller inside
          (size_next_lt evaluator inside token .openParen answered Kind.noConfusion is)
        unfold ReadFollows at read
        simp only [is]
        rcases found : inside.read .expression with ⟨fault | value, behind⟩
        · rw [found] at read
          exact Reads.insideFault evaluator inside behind token fault answered is read
        · rw [found] at read
          rcases closed : behind.next with ⟨fault | closing, after⟩
          · simp only [closed]
            exact Reads.closingFault evaluator inside behind after token value fault
              answered is read closed
          · simp only [closed]
            by_cases closes : closing.kind = .closeParen
            · simp only [if_pos closes]
              exact Reads.group evaluator inside behind after token closing value
                answered is read closed closes
            · simp only [if_neg closes]
              exact Reads.unclosed evaluator inside behind after token closing value
                answered is read closed closes
    | operator operator =>
        simp only [is]
        exact Reads.misplaced evaluator inside token answered (by simp [is]) (by simp [is])
    | closeParen =>
        simp only [is]
        exact Reads.misplaced evaluator inside token answered (by simp [is]) (by simp [is])
    | lineEnd =>
        simp only [is]
        exact Reads.misplaced evaluator inside token answered (by simp [is]) (by simp [is])
    | inputEnd =>
        simp only [is]
        exact Reads.misplaced evaluator inside token answered (by simp [is]) (by simp [is])

private theorem follows_primary (evaluator : Evaluator)
    (smaller : ∀ inside : Evaluator, inside.size ≤ evaluator.size → ReadFollows .atom inside) :
    ReadFollows .primary evaluator := by
  unfold ReadFollows
  rw [read_primary]
  rcases answered : evaluator.next with ⟨found | token, inside⟩
  · exact Reads.fault _ evaluator inside found rfl answered
  · by_cases is : token.kind = .operator .minus
    · have read := smaller inside
        (Nat.le_of_lt
          (size_next_lt evaluator inside token (.operator .minus) answered Kind.noConfusion is))
      unfold ReadFollows at read
      simp only [if_pos is]
      rcases found : inside.read .atom with ⟨fault | value, after⟩
      · rw [found] at read
        exact Reads.negated evaluator inside after token (.error fault) answered is read
      · rw [found] at read
        exact Reads.negated evaluator inside after token (.ok value) answered is read
    · simp only [if_neg is]
      exact Reads.plain evaluator inside _ token _ answered is
        (smaller (inside.putBack token) (size_putBack_le evaluator inside token answered))

private theorem follows_chain (level : Level) (evaluator : Evaluator)
    (first : ReadFollows level.part evaluator)
    (smaller : ∀ (value : Binary64) (inside : Evaluator), inside.size ≤ evaluator.size →
      ContinueFollows level value inside) :
    ReadFollows (.chain level) evaluator := by
  unfold ReadFollows at first ⊢
  rw [read_chain]
  rcases found : evaluator.read level.part with ⟨fault | value, inside⟩
  · rw [found] at first
    exact Reads.chainFault level evaluator inside fault first
  · rw [found] at first
    exact Reads.chain level evaluator inside _ value _ first
      (smaller value inside (size_read_le_of_eq evaluator inside level.part _ found))

private theorem follows_links (level : Level) (value : Binary64) (evaluator : Evaluator)
    (smaller : ∀ inside : Evaluator, inside.size < evaluator.size →
      ReadFollows level.part inside)
    (smallerLinks : ∀ (value : Binary64) (inside : Evaluator), inside.size < evaluator.size →
      ContinueFollows level value inside) :
    ContinueFollows level value evaluator := by
  unfold ContinueFollows
  rw [continueChain_eq]
  rcases answered : evaluator.next with ⟨found | token, inside⟩
  · exact Reads.fault _ evaluator inside found rfl answered
  · cases joins : token.kind.joint? level with
    | none =>
        simp only [joins]
        exact Reads.stop level value evaluator inside token answered joins
    | some operator =>
        have less := size_after evaluator inside token answered
        rw [weight_of_joint token level operator joins] at less
        have read := smaller inside less
        unfold ReadFollows at read
        simp only [joins]
        rcases found : inside.read level.part with ⟨fault | right, behind⟩
        · rw [found] at read
          exact Reads.partFault level value evaluator inside behind token operator fault
            answered joins read
        · rw [found] at read
          have small := size_read_le_of_eq inside behind level.part _ found
          exact Reads.joined level value right evaluator inside behind _ token operator _
            answered joins read
            (smallerLinks (operator.apply value right) behind (Nat.lt_of_le_of_lt small less))

mutual

theorem reads_read (nonterminal : Nonterminal) (evaluator : Evaluator) :
    ReadFollows nonterminal evaluator := by
  cases nonterminal with
  | atom => exact follows_atom evaluator (fun inside less => reads_read .expression inside)
  | primary => exact follows_primary evaluator (fun inside small => reads_read .atom inside)
  | chain level =>
      have place := rank_part_lt level
      exact follows_chain level evaluator (reads_read level.part evaluator)
        (fun value inside small => reads_continueChain level value inside)
termination_by 5 * evaluator.size + rank nonterminal
decreasing_by
  · simp only [rank]; omega
  · simp only [rank]; omega
  · omega
  · omega

theorem reads_continueChain (level : Level) (value : Binary64) (evaluator : Evaluator) :
    ContinueFollows level value evaluator := by
  have place := rank_le level.part
  exact follows_links level value evaluator (fun inside less => reads_read level.part inside)
    (fun value inside less => reads_continueChain level value inside)
termination_by 5 * evaluator.size
decreasing_by
  all_goals omega

end

end Evaluator

/-! ### Sources that agree -/

/-- Related states of two sources give the same answers and stay related, also when
the token just taken is put back. -/
structure Source.Agrees {State Other : Type} (source : Source State) (other : Source Other)
    (Related : State → Other → Prop) : Prop where
  next : ∀ state state', Related state state' →
    (source.next state).1 = (other.next state').1 ∧
      Related (source.next state).2 (other.next state').2
  putBack : ∀ state state' token, Related state state' → (source.next state).1 = .ok token →
    Related (source.putBack (source.next state).2 token)
      (other.putBack (other.next state').2 token)

section

variable {State Other : Type} {source : Source State} {other : Source Other}
  {Related : State → Other → Prop}

private theorem Source.Agrees.step (agrees : source.Agrees other Related)
    {before after : State} {before' : Other} {answer : Except Fault Token}
    (related : Related before before') (answered : source.next before = (answer, after)) :
    ∃ after', other.next before' = (answer, after') ∧ Related after after' := by
  obtain ⟨same, still⟩ := agrees.next before before' related
  rw [answered] at same still
  exact ⟨(other.next before').2, Prod.ext same.symm rfl, still⟩

private theorem Source.Agrees.stepBack (agrees : source.Agrees other Related)
    {before after : State} {before' : Other} {token : Token}
    (related : Related before before') (answered : source.next before = (.ok token, after)) :
    ∃ after', other.next before' = (.ok token, after') ∧
      Related (source.putBack after token) (other.putBack after' token) := by
  obtain ⟨same, _⟩ := agrees.next before before' related
  have still := agrees.putBack before before' token related (by rw [answered])
  rw [answered] at same still
  exact ⟨(other.next before').2, Prod.ext same.symm rfl, still⟩

/-- Sources that agree are read alike: whatever is read from one is read from the other. -/
theorem Reads.transfer (agrees : source.Agrees other Related) {task : Task}
    {before after : State} {answer : Except Fault Binary64}
    (reads : Reads source task before answer after) {before' : Other}
    (related : Related before before') :
    ∃ after', Reads other task before' answer after' ∧ Related after after' := by
  induction reads generalizing before' with
  | fault task before after found takes answered =>
      obtain ⟨after', answered', still⟩ := agrees.step related answered
      exact ⟨after', .fault task before' after' found takes answered', still⟩
  | number before after token value answered isNumber =>
      obtain ⟨after', answered', still⟩ := agrees.step related answered
      exact ⟨after', .number before' after' token value answered' isNumber, still⟩
  | misplaced before after token answered notNumber notOpening =>
      obtain ⟨after', answered', still⟩ := agrees.step related answered
      exact ⟨after', .misplaced before' after' token answered' notNumber notOpening, still⟩
  | insideFault before inside after opening found answered opens _ ih =>
      obtain ⟨inside', answered', relatedInside⟩ := agrees.step related answered
      obtain ⟨after', failed', still⟩ := ih relatedInside
      exact ⟨after', .insideFault before' inside' after' opening found answered' opens failed',
        still⟩
  | closingFault before inside behind after opening value found answered opens _ closed ih =>
      obtain ⟨inside', answered', relatedInside⟩ := agrees.step related answered
      obtain ⟨behind', read', relatedBehind⟩ := ih relatedInside
      obtain ⟨after', closed', still⟩ := agrees.step relatedBehind closed
      exact ⟨after', .closingFault before' inside' behind' after' opening value found answered'
        opens read' closed', still⟩
  | group before inside behind after opening closing value answered opens _ closed closes ih =>
      obtain ⟨inside', answered', relatedInside⟩ := agrees.step related answered
      obtain ⟨behind', read', relatedBehind⟩ := ih relatedInside
      obtain ⟨after', closed', still⟩ := agrees.step relatedBehind closed
      exact ⟨after', .group before' inside' behind' after' opening closing value answered'
        opens read' closed' closes, still⟩
  | unclosed before inside behind after opening closing value answered opens _ closed differs ih =>
      obtain ⟨inside', answered', relatedInside⟩ := agrees.step related answered
      obtain ⟨behind', read', relatedBehind⟩ := ih relatedInside
      obtain ⟨after', closed', still⟩ := agrees.step relatedBehind closed
      exact ⟨after', .unclosed before' inside' behind' after' opening closing value answered'
        opens read' closed' differs, still⟩
  | negated before inside after minus answer answered negates _ ih =>
      obtain ⟨inside', answered', relatedInside⟩ := agrees.step related answered
      obtain ⟨after', read', still⟩ := ih relatedInside
      exact ⟨after', .negated before' inside' after' minus answer answered' negates read', still⟩
  | plain before inside after token answer answered notMinus _ ih =>
      obtain ⟨inside', answered', relatedInside⟩ := agrees.stepBack related answered
      obtain ⟨after', read', still⟩ := ih relatedInside
      exact ⟨after', .plain before' inside' after' token answer answered' notMinus read', still⟩
  | chainFault level before after found _ ih =>
      obtain ⟨after', failed', still⟩ := ih related
      exact ⟨after', .chainFault level before' after' found failed', still⟩
  | chain level before inside after value answer _ _ ihFirst ihMore =>
      obtain ⟨inside', first', relatedInside⟩ := ihFirst related
      obtain ⟨after', more', still⟩ := ihMore relatedInside
      exact ⟨after', .chain level before' inside' after' value answer first' more', still⟩
  | stop level value before after token answered stops =>
      obtain ⟨after', answered', still⟩ := agrees.stepBack related answered
      exact ⟨_, .stop level value before' after' token answered' stops, still⟩
  | partFault level value before inside after joint operator found answered joins _ ih =>
      obtain ⟨inside', answered', relatedInside⟩ := agrees.step related answered
      obtain ⟨after', failed', still⟩ := ih relatedInside
      exact ⟨after', .partFault level value before' inside' after' joint operator found
        answered' joins failed', still⟩
  | joined level value right before inside behind after joint operator answer answered joins
      _ _ ihRead ihMore =>
      obtain ⟨inside', answered', relatedInside⟩ := agrees.step related answered
      obtain ⟨behind', read', relatedBehind⟩ := ihRead relatedInside
      obtain ⟨after', more', still⟩ := ihMore relatedBehind
      exact ⟨after', .joined level value right before' inside' behind' after' joint operator
        answer answered' joins read' more', still⟩

end

/-! ### Streams -/

def TokenStream.source : Source TokenStream :=
  { next := fun stream => (stream.head, stream.tail)
    putBack := fun stream token => .cons (.ok token) stream }

theorem TokenStream.eq_cons_of_next {stream rest : TokenStream} {answer : Except Fault Token}
    (answered : TokenStream.source.next stream = (answer, rest)) :
    stream = .cons answer rest := by
  cases answered
  exact (Stream'.eta stream).symm

namespace Evaluator

theorem agrees_stream :
    source.Agrees TokenStream.source (fun evaluator answers => answers = evaluator.stream) where
  next evaluator answers same := by
    subst same
    rw [stream_next evaluator]
    exact ⟨rfl, rfl⟩
  putBack evaluator answers token same _ := by
    subst same
    change .cons (.ok token) evaluator.stream.tail = (evaluator.next.2.putBack token).stream
    rw [stream_putBack _ token (pending_next evaluator), stream_next evaluator]
    rfl

/-- What an evaluator reads and what it leaves is decided by its stream alone. -/
theorem reads_stream (nonterminal : Nonterminal) (evaluator : Evaluator) :
    Reads TokenStream.source (.phrase nonterminal) evaluator.stream
      (evaluator.read nonterminal).1 (evaluator.read nonterminal).2.stream := by
  obtain ⟨rest, reads, left⟩ :=
    (reads_read nonterminal evaluator).transfer agrees_stream rfl
  subst left
  exact reads

/-! ### Whole lines -/

def before (evaluator : Evaluator) (line : String) : Evaluator :=
  (evaluator.note (.reading line)).onLine line

theorem stream_before (evaluator : Evaluator) (line : String) :
    (evaluator.before line).stream = (Scanner.ofLine line).stream :=
  rfl

private theorem next_note_fst (evaluator : Evaluator) (event : Event) :
    (evaluator.note event).next.1 = evaluator.next.1 := by
  cases held : evaluator.pending with
  | none => simp only [next, note, held, Journal.scan]
  | some token => simp only [next, note, held]

/-- A whole line is an expression, and a terminator behind it. -/
theorem readWhole_fst (evaluator : Evaluator) (line : String) :
    (evaluator.readWhole line).1 =
      match (evaluator.before line).read .expression with
      | (.error fault, _) => .error fault
      | (.ok value, after) =>
          match after.next.1 with
          | .error fault => .error fault
          | .ok token => if token.isTerminator then .ok value else .error (.misplaced token) := by
  simp only [readWhole, readLeading, before]
  rcases ((evaluator.note (.reading line)).onLine line).read .expression with
    ⟨fault | value, after⟩
  · rfl
  · have same := next_note_fst after (outcome line (.ok value))
    rcases answered : (after.note (outcome line (.ok value))).next with ⟨fault | token, last⟩
    · rw [answered] at same
      simp only [answered, ← same]
    · rw [answered] at same
      simp only [answered, ← same]

end Evaluator
end Abacus
