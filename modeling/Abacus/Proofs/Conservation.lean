/-
Reading loses no token.

A reading that gives a value takes exactly the longest sentence from the front of what is
still to come.  One that ends in a fault takes all tokens up to the one it complains about.
The laws are proved of streams, along the rules of reading.
-/

import Abacus.Proofs.Derivation
import Abacus.Proofs.Reading

namespace Abacus

/-! ### What a task is to find -/

/-- The fault is what is said of this answer: a fault is handed on, and a token is
either out of place or stands where a parenthesis has to be closed. -/
def Fault.BlamedOn (fault : Fault) : Except Fault Token → Prop
  | .error found => fault = found
  | .ok token => fault = .misplaced token ∨ fault = .unclosed token.offset

/-- The tokens that the task may take for a value: a sentence, or links that any
chain with the value so far can go on with. -/
def Task.Takes : Task → List Token → Binary64 → Prop
  | .phrase nonterminal, tokens, value => Derives nonterminal tokens value
  | .links level front, tokens, value =>
      ∀ before, Derives (.chain level) before front →
        Derives (.chain level) (before ++ tokens) value

def Task.nonterminal : Task → Nonterminal
  | .phrase nonterminal => nonterminal
  | .links level _ => .chain level

/-- A chain has been read as far as it goes: the next token is there, and it does
not go on with it. -/
def Nonterminal.StopsAt : Nonterminal → TokenStream → Prop
  | .chain level, rest =>
      ∃ token, rest.head = .ok token ∧ (Nonterminal.chain level).EndsAt token
  | _, _ => True

def Task.Ready : Task → TokenStream → Prop
  | .phrase _, _ => True
  | .links level _, before => level.part.StopsAt before

def Refuses (before : TokenStream) (fault : Fault) (after : TokenStream) : Prop :=
  ∃ (tokens : List Token) (answer : Except Fault Token),
    before = tokens.map .ok ++ₛ .cons answer after ∧ fault.BlamedOn answer

def Task.Conserves (task : Task) (before after : TokenStream) : Except Fault Binary64 → Prop
  | .ok value =>
      ∃ tokens, before = tokens.map .ok ++ₛ after ∧ task.Takes tokens value ∧
        task.nonterminal.StopsAt after
  | .error fault => Refuses before fault after

/-! ### One lemma for each step -/

private theorem append_stream_append (front back : List Token) (rest : TokenStream) :
    (front ++ back).map Except.ok ++ₛ rest =
      front.map Except.ok ++ₛ (back.map Except.ok ++ₛ rest) := by
  rw [List.map_append, Stream'.append_append_stream]

theorem Refuses.behind {before inside after : TokenStream} {fault : Fault}
    (tokens : List Token) (split : before = tokens.map .ok ++ₛ inside)
    (refuses : Refuses inside fault after) : Refuses before fault after := by
  obtain ⟨taken, answer, rest, blamed⟩ := refuses
  refine ⟨tokens ++ taken, answer, ?_, blamed⟩
  rw [append_stream_append, ← rest]
  exact split

theorem Nonterminal.StopsAt.chain {level : Level} {token : Token} {rest : TokenStream}
    (stopped : level.part.StopsAt (.cons (.ok token) rest))
    (stops : token.kind.joint? level = none) :
    (Nonterminal.chain level).StopsAt (.cons (.ok token) rest) := by
  refine ⟨token, rfl, ?_⟩
  intro operator is
  have other : operator.level ≠ level := by
    intro atLevel
    have joins := (Kind.joint?_eq_some_iff level token.kind operator).mpr ⟨is, atLevel⟩
    rw [stops] at joins
    cases joins
  cases level with
  | product => exact decide_eq_false other
  | sum =>
      -- the part in front of the token is a term, and it did not take the operator either
      obtain ⟨found, first, ends⟩ := stopped
      cases first
      have refused := ends operator is
      rw [Nonterminal.takes, decide_eq_false_iff_not] at refused
      cases atLevel : operator.level with
      | product => exact absurd atLevel refused
      | sum => exact absurd atLevel other

private theorem conserves_group {inside behind after : TokenStream} {opening closing : Token}
    {value : Binary64} (opens : opening.kind = .openParen) (closes : closing.kind = .closeParen)
    (read : (Task.phrase .expression).Conserves inside behind (.ok value))
    (closed : behind = .cons (.ok closing) after) :
    (Task.phrase .atom).Conserves (.cons (.ok opening) inside) after (.ok value) := by
  obtain ⟨tokens, split, derived, _⟩ := read
  refine ⟨opening :: tokens ++ [closing], ?_,
    Derives.group opening closing tokens value opens closes derived, trivial⟩
  rw [append_stream_append, split, closed]
  rfl

private theorem conserves_negated {inside after : TokenStream} {minus : Token}
    {answer : Except Fault Binary64} (negates : minus.kind = .operator .minus)
    (read : (Task.phrase .atom).Conserves inside after answer) :
    (Task.phrase .primary).Conserves (.cons (.ok minus) inside) after (answer.map (- ·)) := by
  cases answer with
  | error fault => exact Refuses.behind [minus] rfl read
  | ok value =>
      obtain ⟨tokens, split, derived, _⟩ := read
      refine ⟨minus :: tokens, ?_, Derives.negated minus tokens value negates derived, trivial⟩
      rw [split]
      rfl

private theorem conserves_plain {before after : TokenStream} {answer : Except Fault Binary64}
    (read : (Task.phrase .atom).Conserves before after answer) :
    (Task.phrase .primary).Conserves before after answer := by
  cases answer with
  | error fault => exact read
  | ok value =>
      obtain ⟨tokens, split, derived, _⟩ := read
      exact ⟨tokens, split, Derives.plain tokens value derived, trivial⟩

private theorem conserves_chain {level : Level} {before inside after : TokenStream}
    {value : Binary64} {answer : Except Fault Binary64}
    (first : (Task.phrase level.part).Conserves before inside (.ok value))
    (more : (Task.links level value).Ready inside →
      (Task.links level value).Conserves inside after answer) :
    (Task.phrase (.chain level)).Conserves before after answer := by
  obtain ⟨tokens, split, derived, stopped⟩ := first
  have rest := more stopped
  cases answer with
  | error fault => exact Refuses.behind tokens split rest
  | ok result =>
      obtain ⟨links, splitLinks, takes, stops⟩ := rest
      refine ⟨tokens ++ links, ?_, takes tokens (Derives.single level tokens value derived), stops⟩
      rw [append_stream_append, ← splitLinks]
      exact split

private theorem conserves_stop {level : Level} {value : Binary64} {token : Token}
    {rest : TokenStream} (stopped : level.part.StopsAt (.cons (.ok token) rest))
    (stops : token.kind.joint? level = none) :
    (Task.links level value).Conserves (.cons (.ok token) rest) (.cons (.ok token) rest)
      (.ok value) := by
  refine ⟨[], rfl, ?_, stopped.chain stops⟩
  intro before derived
  rw [List.append_nil]
  exact derived

private theorem conserves_joined {level : Level} {value right : Binary64}
    {inside behind after : TokenStream} {joint : Token} {operator : Operator}
    {answer : Except Fault Binary64} (joins : joint.kind.joint? level = some operator)
    (read : (Task.phrase level.part).Conserves inside behind (.ok right))
    (more : (Task.links level (operator.apply value right)).Ready behind →
      (Task.links level (operator.apply value right)).Conserves behind after answer) :
    (Task.links level value).Conserves (.cons (.ok joint) inside) after answer := by
  obtain ⟨tokens, split, derived, stopped⟩ := read
  have rest := more stopped
  have whole : Stream'.cons (.ok joint) inside = (joint :: tokens).map .ok ++ₛ behind := by
    rw [split]
    rfl
  cases answer with
  | error fault => exact Refuses.behind (joint :: tokens) whole rest
  | ok result =>
      obtain ⟨links, splitLinks, takes, stops⟩ := rest
      refine ⟨joint :: tokens ++ links, ?_, ?_, stops⟩
      · rw [append_stream_append, ← splitLinks]
        exact whole
      · intro before derivedBefore
        have longer := takes _
          (Derives.joined level joint operator before tokens value right joins derivedBefore
            derived)
        rw [List.append_assoc] at longer
        exact longer

/-! ### Readings of streams -/

theorem Reads.conserves {task : Task} {before after : TokenStream}
    {answer : Except Fault Binary64} (reads : Reads TokenStream.source task before answer after)
    (ready : task.Ready before) : task.Conserves before after answer := by
  -- links come to be ready because the part in front of them was read as far as it goes
  induction reads with
  | fault task before after found takes answered =>
      exact ⟨[], .error found, TokenStream.eq_cons_of_next answered, rfl⟩
  | number before after token value answered isNumber =>
      exact ⟨[token], TokenStream.eq_cons_of_next answered,
        Derives.number token value isNumber, trivial⟩
  | misplaced before after token answered notNumber notOpening =>
      exact ⟨[], .ok token, TokenStream.eq_cons_of_next answered, Or.inl rfl⟩
  | insideFault before inside after opening found answered opens _ ih =>
      exact Refuses.behind [opening] (TokenStream.eq_cons_of_next answered) (ih trivial)
  | closingFault before inside behind after opening value found answered opens _ closed ih =>
      obtain ⟨tokens, split, _, _⟩ := ih trivial
      have refuses : Refuses behind found after :=
        ⟨[], .error found, TokenStream.eq_cons_of_next closed, rfl⟩
      refine refuses.behind (opening :: tokens) ?_
      rw [TokenStream.eq_cons_of_next answered, split]
      rfl
  | group before inside behind after opening closing value answered opens _ closed closes ih =>
      rw [TokenStream.eq_cons_of_next answered]
      exact conserves_group opens closes (ih trivial) (TokenStream.eq_cons_of_next closed)
  | unclosed before inside behind after opening closing value answered opens _ closed other ih =>
      obtain ⟨tokens, split, _, _⟩ := ih trivial
      have refuses : Refuses behind (.unclosed closing.offset) after :=
        ⟨[], .ok closing, TokenStream.eq_cons_of_next closed, Or.inr rfl⟩
      refine refuses.behind (opening :: tokens) ?_
      rw [TokenStream.eq_cons_of_next answered, split]
      rfl
  | negated before inside after minus answer answered negates _ ih =>
      rw [TokenStream.eq_cons_of_next answered]
      exact conserves_negated negates (ih trivial)
  | plain before inside after token answer answered notMinus _ ih =>
      rw [TokenStream.eq_cons_of_next answered]
      exact conserves_plain (ih trivial)
  | chainFault level before after found _ ih => exact ih trivial
  | chain level before inside after value answer _ _ ihFirst ihMore =>
      exact conserves_chain (ihFirst trivial) ihMore
  | stop level value before after token answered stops =>
      have first := TokenStream.eq_cons_of_next answered
      rw [first] at ready ⊢
      exact conserves_stop ready stops
  | partFault level value before inside after joint operator found answered joins _ ih =>
      exact Refuses.behind [joint] (TokenStream.eq_cons_of_next answered) (ih trivial)
  | joined level value right before inside behind after joint operator answer answered joins
      _ _ ihRead ihMore =>
      rw [TokenStream.eq_cons_of_next answered]
      exact conserves_joined joins (ihRead trivial) ihMore

theorem Reads.notOperator_behind {before after : TokenStream} {value : Binary64}
    (reads : Reads TokenStream.source (.phrase .expression) before (.ok value) after) :
    ∃ token, after.head = .ok token ∧ ∀ operator, token.kind ≠ .operator operator := by
  obtain ⟨_, _, _, token, first, ends⟩ := reads.conserves trivial
  refine ⟨token, first, ?_⟩
  intro operator is
  cases ends operator is

/-- What a phrase is found to be is the longest sentence at the front of the stream. -/
theorem Nonterminal.StopsAt.longest {nonterminal : Nonterminal} {sentence other : List Token}
    {rest restOther : TokenStream} {value result : Binary64} (stops : nonterminal.StopsAt rest)
    (derived : Derives nonterminal sentence value) (derivedOther : Derives nonterminal other result)
    (same : sentence.map .ok ++ₛ rest = other.map .ok ++ₛ restOther) :
    other.length ≤ sentence.length := by
  apply Nat.le_of_not_lt
  intro less
  obtain ⟨next, more, longer, isNext⟩ :=
    TokenStream.exists_append_of_length_lt sentence other rest restOther less same
  rw [longer] at derivedOther
  have ends : nonterminal.EndsAt next := by
    cases nonterminal with
    | atom => exact fun _ _ => rfl
    | primary => exact fun _ _ => rfl
    | chain level =>
        obtain ⟨token, first, ends⟩ := stops
        rw [isNext] at first
        cases first
        exact ends
  exact derived.not_append_cons ends derivedOther

namespace Evaluator

/-! ### The token that stays pending -/

def putsBack : Task → Bool
  | .phrase (.chain _) => true
  | .phrase _ => false
  | .links _ _ => true

/-- A token is pending behind a chain that has a value, and at no other time. -/
theorem isSome_pending_of_reads {task : Task} {before after : Evaluator}
    {answer : Except Fault Binary64} (reads : Reads source task before answer after) :
    after.pending.isSome = (putsBack task && answer.toBool) := by
  have taken (evaluator rest : Evaluator) (found : Except Fault Token)
      (answered : evaluator.next = (found, rest)) : rest.pending = none := by
    have nothing := pending_next evaluator
    rw [answered] at nothing
    exact nothing
  induction reads with
  | fault task before after found takes answered =>
      rw [taken before after _ answered, Except.toBool, Bool.and_false]
      rfl
  | number before after token value answered isNumber =>
      rw [taken before after _ answered]
      rfl
  | misplaced before after token answered notNumber notOpening =>
      rw [taken before after _ answered]
      rfl
  | insideFault before inside after opening found answered opens _ ih => exact ih
  | closingFault before inside behind after opening value found answered opens _ closed _ =>
      rw [taken behind after _ closed]
      rfl
  | group before inside behind after opening closing value answered opens _ closed closes _ =>
      rw [taken behind after _ closed]
      rfl
  | unclosed before inside behind after opening closing value answered opens _ closed other _ =>
      rw [taken behind after _ closed]
      rfl
  | negated before inside after minus answer answered negates _ ih => exact ih
  | plain before inside after token answer answered notMinus _ ih => exact ih
  | chainFault level before after found _ ih =>
      rw [ih, Except.toBool, Bool.and_false, Bool.and_false]
  | chain level before inside after value answer _ _ _ ihMore => exact ihMore
  | stop level value before after token answered stops => rfl
  | partFault level value before inside after joint operator found answered joins _ ih =>
      rw [ih, Except.toBool, Bool.and_false, Bool.and_false]
  | joined level value right before inside behind after joint operator answer answered joins
      _ _ _ ihMore => exact ihMore

theorem pending_of_fault {task : Task} {before after : Evaluator} {fault : Fault}
    (reads : Reads source task before (.error fault) after) : after.pending = none := by
  have held := isSome_pending_of_reads reads
  rw [Except.toBool, Bool.and_false] at held
  exact Option.isNone_iff_eq_none.mp (Option.isSome_eq_false_iff.mp held)

/-- How a phrase with a value leaves the pending token: behind a chain it is a token
that the chain does not go on with, and nothing is looked at behind an atom or a
primary. -/
def PendingBehind : Nonterminal → Option Token → Prop
  | .chain level, pending =>
      ∃ token, pending = some token ∧ (Nonterminal.chain level).EndsAt token
  | _, pending => pending = none

private theorem pendingBehind_of_stopsAt (nonterminal : Nonterminal) (after : Evaluator)
    (stops : nonterminal.StopsAt after.stream)
    (held : after.pending.isSome = putsBack (.phrase nonterminal)) :
    PendingBehind nonterminal after.pending := by
  cases nonterminal with
  | atom => exact Option.not_isSome_iff_eq_none.mp (by rw [held]; exact Bool.false_ne_true)
  | primary => exact Option.not_isSome_iff_eq_none.mp (by rw [held]; exact Bool.false_ne_true)
  | chain level =>
      obtain ⟨token, pending⟩ := Option.isSome_iff_exists.mp held
      obtain ⟨first, isFirst, ends⟩ := stops
      rw [stream_of_pending after token pending] at isFirst
      cases isFirst
      exact ⟨token, pending, ends⟩

/-! ### What reading leaves -/

/-- Whatever was read before, reading a phrase takes from the stream of answers what
it makes of it and nothing else.  A value is that of the longest sentence at the
front of the stream, and behind that sentence everything is still to come.  Where a
token is out of place, or stands where a parenthesis has to be closed, it is the last
one taken, and what followed it is still to come.  A lexical fault stays for ever. -/
theorem read_conserves_stream (evaluator : Evaluator) (nonterminal : Nonterminal) :
    match evaluator.read nonterminal with
    | (.ok value, after) =>
        PendingBehind nonterminal after.pending ∧
        ∃ sentence, evaluator.stream = sentence.map .ok ++ₛ after.stream ∧
          Derives nonterminal sentence value ∧
          ∀ other rest result, evaluator.stream = other.map .ok ++ₛ rest →
            Derives nonterminal other result → other.length ≤ sentence.length
    | (.error (.lexical detail position), after) =>
        after.pending = none ∧ after.stream = .const (.error (.lexical detail position)) ∧
        ∃ tokens : List Token, evaluator.stream = tokens.map .ok ++ₛ after.stream
    | (.error fault, after) =>
        after.pending = none ∧
        ∃ (tokens : List Token) (token : Token),
          evaluator.stream = (tokens ++ [token]).map .ok ++ₛ after.stream ∧
          (fault = .misplaced token ∨ fault = .unclosed token.offset) := by
  have conserves := (reads_stream nonterminal evaluator).conserves trivial
  have held := isSome_pending_of_reads (reads_read nonterminal evaluator)
  rcases found : evaluator.read nonterminal with ⟨fault | value, after⟩
  · rw [found] at conserves held
    have nothing : after.pending = none := by
      apply Option.not_isSome_iff_eq_none.mp
      rw [held, Except.toBool, Bool.and_false]
      exact Bool.false_ne_true
    obtain ⟨tokens, answer, split, blamed⟩ := conserves
    cases answer with
    | error scanned =>
        cases blamed
        obtain ⟨⟨detail, position, rfl⟩, repeats⟩ := stream_of_fault evaluator _ _ _ split
        refine ⟨nothing, repeats, tokens, ?_⟩
        rw [split, repeats, ← Stream'.const_eq]
    | ok token =>
        have taken : evaluator.stream = (tokens ++ [token]).map .ok ++ₛ after.stream := by
          rw [append_stream_append]
          exact split
        rcases blamed with rfl | rfl
        · exact ⟨nothing, tokens, token, taken, Or.inl rfl⟩
        · exact ⟨nothing, tokens, token, taken, Or.inr rfl⟩
  · rw [found] at conserves held
    obtain ⟨sentence, split, derived, stops⟩ := conserves
    refine ⟨pendingBehind_of_stopsAt nonterminal after stops ?_, sentence, split, derived, ?_⟩
    · rw [held]
      exact Bool.and_true _
    · intro other rest result splitOther derivedOther
      exact stops.longest derived derivedOther (split.symm.trans splitOther)

end Evaluator
end Abacus
