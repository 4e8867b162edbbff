/-
Which lines have a value, and which value.

That a value comes from a sentence follows from the conservation of tokens.  That every
sentence has its value follows from the automaton: it walks over the sentence and accepts at
the terminator, so reading finds some value, and a sentence has only one.
-/

import Abacus.Proofs.Sentence

namespace Abacus

/-! ### The phrase of a line -/

/-- Whether the answer is part of a phrase; a terminator ends it and a fault does not. -/
def inPhrase : Except Fault Token → Bool
  | .ok token => ! token.isTerminator
  | .error _ => true

namespace Scanner

def phrase (scanner : Scanner) : List (Except Fault Token) :=
  scanner.answers.takeWhile inPhrase

theorem phrase_eq_of_answers_eq {scanner : Scanner} {tokens : List Token} {terminator : Token}
    {rest : List (Except Fault Token)}
    (split : scanner.answers = tokens.map .ok ++ .ok terminator :: rest)
    (inside : ∀ token ∈ tokens, token.isTerminator = false)
    (ends : terminator.isTerminator = true) : scanner.phrase = tokens.map .ok := by
  have goesOn : ∀ answer ∈ tokens.map Except.ok, inPhrase answer = true := by
    intro answer member
    obtain ⟨token, isToken, rfl⟩ := List.mem_map.mp member
    rw [inPhrase, inside token isToken]
    rfl
  have stops : ¬ inPhrase (.ok terminator) = true := by
    rw [inPhrase, ends]
    exact Bool.false_ne_true
  rw [phrase, split, List.takeWhile_append_of_pos goesOn, List.takeWhile_cons_of_neg stops,
    List.append_nil]

theorem exists_terminator_of_phrase_eq {scanner : Scanner} {tokens : List Token}
    (phrased : scanner.phrase = tokens.map .ok) :
    ∃ terminator rest, scanner.answers = tokens.map .ok ++ .ok terminator :: rest ∧
      terminator.isTerminator = true := by
  have split : scanner.phrase ++ scanner.answers.dropWhile inPhrase = scanner.answers :=
    List.takeWhile_append_dropWhile
  have behind := List.head?_dropWhile_not inPhrase scanner.answers
  rw [phrased] at split
  cases left : scanner.answers.dropWhile inPhrase with
  | nil =>
      -- the last answer would be in the phrase, but it is a terminator or a fault
      obtain ⟨front, last, finite, _, _, isLast⟩ := scanner.exists_answers_eq
      rw [left, List.append_nil] at split
      have member : last ∈ tokens.map Except.ok := by
        rw [split, finite]
        exact List.mem_append_right _ List.mem_cons_self
      rcases isLast with ⟨offset, rfl⟩ | ⟨detail, position, rfl⟩
      · rw [← phrased] at member
        have goesOn := List.all_eq_true.mp List.all_takeWhile _ member
        cases goesOn
      · obtain ⟨token, _, isToken⟩ := List.mem_map.mp member
        cases isToken
  | cons answer rest =>
      rw [left, List.head?_cons] at behind
      cases answer with
      | error fault => cases behind
      | ok terminator =>
          rw [left] at split
          refine ⟨terminator, rest, split.symm, ?_⟩
          rw [← Bool.not_eq_false']
          exact behind

/-- The tokens at the front of the stream are at the front of the finite answers too,
as long as the input has not ended. -/
theorem exists_answers_eq_of_stream_eq {scanner : Scanner} {tokens : List Token}
    {answer : Except Fault Token} {more : TokenStream}
    (split : scanner.stream = tokens.map .ok ++ₛ .cons answer more)
    (inside : ∀ token ∈ tokens, token.isTerminator = false) :
    ∃ rest, scanner.answers = tokens.map .ok ++ answer :: rest := by
  induction tokens generalizing scanner with
  | nil =>
      have first := (Stream'.cons_injective2 (scanner.stream_eq.symm.trans split)).1
      rw [answers, first]
      split
      · exact ⟨[], rfl⟩
      · exact ⟨_, rfl⟩
  | cons token tokens ih =>
      obtain ⟨first, others⟩ := Stream'.cons_injective2 (scanner.stream_eq.symm.trans split)
      have goesOn : isLastAnswer scanner.next.1 = false := by
        have ordinary := inside token List.mem_cons_self
        rw [first, isLastAnswer, decide_eq_false_iff_not]
        intro isEnd
        rw [(Token.isTerminator_iff token).mpr (Or.inr isEnd)] at ordinary
        cases ordinary
      have insideRest : ∀ token ∈ tokens, token.isTerminator = false := by
        intro other member
        exact inside other (List.mem_cons_of_mem token member)
      obtain ⟨rest, finite⟩ := ih others insideRest
      refine ⟨rest, ?_⟩
      rw [answers_of_not_last scanner goesOn, first, finite]
      rfl

end Scanner

/-! ### Values and sentences -/

theorem Derives.not_terminator {nonterminal : Nonterminal} {tokens : List Token}
    {value : Binary64} (derived : Derives nonterminal tokens value) :
    ∀ token ∈ tokens, token.isTerminator = false :=
  Automaton.not_terminator_of_walk (derived.walked 0)

/-- Soundness: a value is that of a sentence with a terminator behind it. -/
theorem Evaluator.exists_sentence_of_readWhole {evaluator : Evaluator} {line : String}
    {value : Binary64} (accepted : (evaluator.readWhole line).1 = .ok value) :
    ∃ sentence, (Scanner.ofLine line).phrase = sentence.map .ok ∧
      Derives .expression sentence value := by
  have reads := reads_stream .expression (evaluator.before line)
  rw [readWhole_fst] at accepted
  rw [stream_before] at reads
  rcases found : (evaluator.before line).read .expression with ⟨fault | result, after⟩
  · rw [found] at accepted
    cases accepted
  · rw [found] at accepted reads
    obtain ⟨sentence, split, derived, _⟩ := reads.conserves trivial
    rw [stream_next after] at split
    obtain ⟨rest, finite⟩ := Scanner.exists_answers_eq_of_stream_eq split derived.not_terminator
    cases behind : after.next.1 with
    | error fault =>
        simp only [behind] at accepted
        cases accepted
    | ok terminator =>
        simp only [behind] at accepted
        rw [behind] at finite
        split at accepted
        · next ends =>
            cases accepted
            exact ⟨sentence,
              Scanner.phrase_eq_of_answers_eq finite derived.not_terminator ends, derived⟩
        · cases accepted

/-- Completeness: reading accepts a sentence, with its value. -/
theorem Evaluator.readWhole_of_derives (evaluator : Evaluator) {line : String}
    {sentence : List Token} {value : Binary64}
    (phrased : (Scanner.ofLine line).phrase = sentence.map .ok)
    (derived : Derives .expression sentence value) :
    (evaluator.readWhole line).1 = .ok value := by
  obtain ⟨terminator, rest, split, ends⟩ := Scanner.exists_terminator_of_phrase_eq phrased
  have accepts := Automaton.run_sentence derived ends rest
  rw [← split, Automaton.run_readWhole evaluator line] at accepts
  cases found : (evaluator.readWhole line).1 with
  | error fault =>
      rw [found] at accepts
      cases accepts
  | ok result =>
      obtain ⟨other, phrasedOther, derivedOther⟩ := exists_sentence_of_readWhole found
      have same : other = sentence := by
        rw [phrased] at phrasedOther
        exact (List.map_inj_right (fun _ _ => Except.ok.inj)).mp phrasedOther.symm
      rw [same] at derivedOther
      rw [derivedOther.value_unique derived]

theorem Evaluator.readWhole_fst_eq_evaluate (evaluator : Evaluator) (line : String) :
    (evaluator.readWhole line).1 = evaluate line := by
  cases found : evaluate line with
  | ok value =>
      obtain ⟨sentence, phrased, derived⟩ := exists_sentence_of_readWhole found
      exact evaluator.readWhole_of_derives phrased derived
  | error fault =>
      have outcome := Automaton.run_readWhole evaluator line
      rw [Automaton.run_evaluate line, found] at outcome
      cases read : (evaluator.readWhole line).1 with
      | ok value =>
          rw [read] at outcome
          cases outcome
      | error other =>
          rw [read] at outcome
          cases outcome
          rfl

/-- A line has a value exactly when a tree derives its phrase, and the value is that of
the tree.  No other tree derives the same phrase. -/
theorem evaluate_eq_ok_iff_exists_tree (line : String) (value : Binary64) :
    (evaluate line = .ok value ↔
      ∃ tree : Tree .expression,
        (Scanner.ofLine line).phrase = tree.tokens.map .ok ∧ tree.value = value) ∧
      ∀ left right : Tree .expression, left.tokens = right.tokens → left = right := by
  refine ⟨⟨?_, ?_⟩, Tree.eq_of_tokens_eq⟩
  · intro accepted
    obtain ⟨sentence, phrased, derived⟩ := Evaluator.exists_sentence_of_readWhole accepted
    obtain ⟨tree, rfl, sameValue⟩ := derived.exists_tree
    exact ⟨tree, phrased, sameValue⟩
  · rintro ⟨tree, phrased, rfl⟩
    exact Evaluator.empty.readWhole_of_derives phrased tree.derives

end Abacus
