/-
The automaton on sentences, and on their prefixes.

A walk is a run that has not stopped.  A walk from the start says which parentheses are open
and, in each of them, how far an expression has come.  Such tokens can always be completed,
by an operand where one is missing and then by closing all parentheses.
-/

import Abacus.Proofs.Automaton

namespace Abacus
namespace Automaton

/-! ### Walks -/

def walk (configuration : Configuration) : List Token → Option Configuration
  | [] => some configuration
  | token :: rest =>
      match moveToken configuration token with
      | .goes next => walk next rest
      | .stops _ => none

theorem walk_cons_of_goes {configuration next : Configuration} {token : Token}
    (goes : moveToken configuration token = .goes next) (rest : List Token) :
    walk configuration (token :: rest) = walk next rest := by
  simp only [walk, goes]

theorem exists_goes_of_walk_cons {configuration last : Configuration} {token : Token}
    {rest : List Token} (walked : walk configuration (token :: rest) = some last) :
    ∃ next, moveToken configuration token = .goes next ∧ walk next rest = some last := by
  cases moved : moveToken configuration token with
  | stops outcome =>
      simp only [walk, moved] at walked
      cases walked
  | goes next =>
      rw [walk_cons_of_goes moved] at walked
      exact ⟨next, rfl, walked⟩

theorem walk_append (configuration : Configuration) (front back : List Token) :
    walk configuration (front ++ back) = (walk configuration front).bind (walk · back) := by
  induction front generalizing configuration with
  | nil => rfl
  | cons token rest ih =>
      cases moved : moveToken configuration token with
      | stops outcome => simp only [List.cons_append, walk, moved, Option.bind_none]
      | goes next => simp only [List.cons_append, walk, moved, ih]

theorem run_append_of_walk {configuration last : Configuration} {tokens : List Token}
    (walked : walk configuration tokens = some last) (rest : List (Except Fault Token)) :
    run configuration (tokens.map .ok ++ rest) = run last rest := by
  induction tokens generalizing configuration with
  | nil =>
      cases walked
      rfl
  | cons token tokens ih =>
      obtain ⟨next, goes, walkedRest⟩ := exists_goes_of_walk_cons walked
      have moved : move configuration (.ok token) = .goes next := goes
      rw [List.map_cons, List.cons_append, run_cons_of_goes moved]
      exact ih walkedRest

theorem exists_walk_of_run {configuration : Configuration} {answers : List (Except Fault Token)}
    {outcome : Except Fault Unit} (stopped : run configuration answers = some outcome) :
    ∃ tokens answer rest last, answers = tokens.map .ok ++ answer :: rest ∧
      walk configuration tokens = some last ∧ move last answer = .stops outcome := by
  induction answers generalizing configuration with
  | nil => cases stopped
  | cons answer rest ih =>
      cases moved : move configuration answer with
      | stops found =>
          rw [run_cons_of_stops moved] at stopped
          cases stopped
          exact ⟨[], answer, rest, configuration, rfl, rfl, moved⟩
      | goes next =>
          rw [run_cons_of_goes moved] at stopped
          obtain ⟨tokens, last, behind, configuration', split, walked, stops⟩ := ih stopped
          cases answer with
          | error fault => cases moved
          | ok token =>
              refine ⟨token :: tokens, last, behind, configuration', ?_, ?_, stops⟩
              · rw [split]
                rfl
              · rw [walk_cons_of_goes moved]
                exact walked

theorem run_append_of_run {shared more : List (Except Fault Token)} {outcome : Except Fault Unit}
    (stopped : run start shared = some outcome) : run start (shared ++ more) = some outcome := by
  obtain ⟨tokens, answer, rest, last, rfl, walked, stops⟩ := exists_walk_of_run stopped
  rw [List.append_assoc, run_append_of_walk walked]
  exact run_cons_of_stops stops _

theorem exists_walk_of_run_eq_none {configuration : Configuration} {tokens : List Token}
    (goesOn : run configuration (tokens.map .ok) = none) :
    ∃ last, walk configuration tokens = some last := by
  induction tokens generalizing configuration with
  | nil => exact ⟨configuration, rfl⟩
  | cons token tokens ih =>
      cases moved : moveToken configuration token with
      | stops outcome =>
          have stops : move configuration (.ok token) = .stops outcome := moved
          rw [List.map_cons, run_cons_of_stops stops] at goesOn
          cases goesOn
      | goes next =>
          have goes : move configuration (.ok token) = .goes next := moved
          rw [List.map_cons, run_cons_of_goes goes] at goesOn
          rw [walk_cons_of_goes moved]
          exact ih goesOn

theorem not_terminator_of_walk {configuration last : Configuration} {tokens : List Token}
    (walked : walk configuration tokens = some last) :
    ∀ token ∈ tokens, token.isTerminator = false := by
  induction tokens generalizing configuration with
  | nil =>
      intro token member
      cases member
  | cons first rest ih =>
      obtain ⟨next, goes, walkedRest⟩ := exists_goes_of_walk_cons walked
      intro token member
      rcases List.mem_cons.mp member with rfl | later
      · rw [← Bool.not_eq_true]
        intro ends
        exact moveToken_terminator configuration next ends goes
      · exact ih walkedRest token later

/-! ### Sentences -/

/-- An atom does not begin with a minus, so it is walked as well where one may stand. -/
private theorem walk_operand_of_afterMinus {depth : Nat} {tokens : List Token}
    (walked : walk ⟨.afterMinus, depth⟩ tokens = some ⟨.operator, depth⟩) :
    walk ⟨.operand, depth⟩ tokens = some ⟨.operator, depth⟩ := by
  cases tokens with
  | nil => cases walked
  | cons token rest =>
      obtain ⟨next, goes, walkedRest⟩ := exists_goes_of_walk_cons walked
      have notMinus : token.kind ≠ .operator .minus := by
        intro is
        rw [moveToken_misplaced (by simp [is]) (by simp [is])] at goes
        cases goes
      rw [← moveToken_operand notMinus] at goes
      rw [walk_cons_of_goes goes]
      exact walkedRest

end Automaton

open Automaton in
/-- A sentence is walked without a stop, and no parenthesis is open behind it that was
not open in front of it. -/
theorem Derives.walked {nonterminal : Nonterminal} {tokens : List Token} {value : Binary64}
    (derived : Derives nonterminal tokens value) (depth : Nat) :
    walk ⟨modeOf (.phrase nonterminal), depth⟩ tokens = some ⟨.operator, depth⟩ := by
  induction derived generalizing depth with
  | number token value isNumber =>
      exact walk_cons_of_goes (moveToken_number isNumber) []
  | group opening closing inside value opens closes _ ih =>
      have expression : walk ⟨.operand, depth + 1⟩ inside = some ⟨.operator, depth + 1⟩ :=
        ih (depth + 1)
      have inner : walk ⟨.operand, depth + 1⟩ (inside ++ [closing]) =
          some ⟨.operator, depth⟩ := by
        rw [walk_append, expression, Option.bind_some]
        exact walk_cons_of_goes (moveToken_closeParen closes) []
      exact (walk_cons_of_goes (moveToken_openParen opens) _).trans inner
  | plain tokens value _ ih => exact walk_operand_of_afterMinus (ih depth)
  | negated minus tokens value negates _ ih =>
      exact (walk_cons_of_goes (moveToken_minus negates) tokens).trans (ih depth)
  | single level tokens value _ ih =>
      have walked := ih depth
      rw [modeOf_part] at walked
      exact walked
  | joined level joint operator before after left right joins _ _ ihLeft ihRight =>
      rw [walk_append, ihLeft depth, Option.bind_some]
      exact (walk_cons_of_goes (moveToken_joint joins depth) after).trans (ihRight depth)

namespace Automaton

theorem run_sentence {sentence : List Token} {value : Binary64} {terminator : Token}
    (derived : Derives .expression sentence value) (ends : terminator.isTerminator = true)
    (rest : List (Except Fault Token)) :
    run start (sentence.map .ok ++ .ok terminator :: rest) = some (.ok ()) := by
  have walked : walk start sentence = some ⟨.operator, 0⟩ := derived.walked 0
  have accepts : move ⟨.operator, 0⟩ (.ok terminator) = .stops (.ok ()) := by
    refine (moveToken_outside ?_).trans (by rw [ends]; rfl)
    intro operator is
    rw [Token.isTerminator, is] at ends
    cases ends
  rw [run_append_of_walk walked]
  exact run_cons_of_stops accepts rest

/-! ### Beginnings of sentences -/

inductive Sign : List Token → Prop where
  | plain : Sign []
  | negated (minus : Token) (negates : minus.kind = .operator .minus) : Sign [minus]

/-- What stands in an expression in front of one of its primaries. -/
inductive Front : List Token → Prop where
  | first : Front []
  | joint (front part : List Token) (value : Binary64) (joint : Token) (operator : Operator)
      (before : Front front) (derived : Derives .primary part value)
      (joins : joint.kind = .operator operator) :
      Front (front ++ (part ++ [joint]))

/-- What stands in front of an expression, with so many parentheses open. -/
inductive Opened : Nat → List Token → Prop where
  | line : Opened 0 []
  | group (depth : Nat) (outer front sign : List Token) (opening : Token)
      (opened : Opened depth outer) (before : Front front) (signed : Sign sign)
      (opens : opening.kind = .openParen) :
      Opened (depth + 1) (outer ++ (front ++ (sign ++ [opening])))

inductive Reached : Configuration → List Token → Prop where
  | operand (depth : Nat) (outer front : List Token)
      (opened : Opened depth outer) (before : Front front) :
      Reached ⟨.operand, depth⟩ (outer ++ front)
  | afterMinus (depth : Nat) (outer front : List Token) (minus : Token)
      (opened : Opened depth outer) (before : Front front)
      (negates : minus.kind = .operator .minus) :
      Reached ⟨.afterMinus, depth⟩ (outer ++ (front ++ [minus]))
  | operator (depth : Nat) (outer front part : List Token) (value : Binary64)
      (opened : Opened depth outer) (before : Front front)
      (derived : Derives .primary part value) :
      Reached ⟨.operator, depth⟩ (outer ++ (front ++ part))

def Lead (level : Level) (lead : List Token) : Prop :=
  ∀ part value, Derives level.part part value →
    ∃ result, Derives (.chain level) (lead ++ part) result

private theorem lead_nil (level : Level) : Lead level [] := by
  intro part value derived
  exact ⟨value, Derives.single level part value derived⟩

private theorem lead_joint {level : Level} {before : List Token} {value : Binary64}
    {joint : Token} {operator : Operator} (derived : Derives (.chain level) before value)
    (joins : joint.kind.joint? level = some operator) : Lead level (before ++ [joint]) := by
  intro part right derivedPart
  rw [List.append_assoc]
  exact ⟨_, Derives.joined level joint operator before part value right joins derived derivedPart⟩

/-- In front of a primary stands a chain of terms, and behind it one of primaries. -/
private theorem Front.exists_leads {front : List Token} (before : Front front) :
    ∃ sums products, front = sums ++ products ∧ Lead .sum sums ∧ Lead .product products := by
  induction before with
  | first => exact ⟨[], [], rfl, lead_nil .sum, lead_nil .product⟩
  | joint front part value joint operator _ derived joins ih =>
      obtain ⟨sums, products, rfl, leadSum, leadProduct⟩ := ih
      obtain ⟨product, derivedTerm⟩ := leadProduct part value derived
      cases atLevel : operator.level with
      | product =>
          refine ⟨sums, (products ++ part) ++ [joint], ?_, leadSum, ?_⟩
          · simp only [List.append_assoc]
          · exact lead_joint derivedTerm
              ((Kind.joint?_eq_some_iff .product joint.kind operator).mpr ⟨joins, atLevel⟩)
      | sum =>
          obtain ⟨sum, derivedSum⟩ := leadSum _ product derivedTerm
          refine ⟨(sums ++ (products ++ part)) ++ [joint], [], ?_, ?_, lead_nil .product⟩
          · simp only [List.append_assoc, List.append_nil]
          · exact lead_joint derivedSum
              ((Kind.joint?_eq_some_iff .sum joint.kind operator).mpr ⟨joins, atLevel⟩)

theorem Front.exists_expression {front part : List Token} {value : Binary64}
    (before : Front front) (derived : Derives .primary part value) :
    ∃ result, Derives .expression (front ++ part) result := by
  obtain ⟨sums, products, rfl, leadSum, leadProduct⟩ := before.exists_leads
  obtain ⟨product, derivedTerm⟩ := leadProduct part value derived
  rw [List.append_assoc]
  exact leadSum _ product derivedTerm

theorem Sign.exists_primary {sign atom : List Token} {value : Binary64} (signed : Sign sign)
    (derived : Derives .atom atom value) :
    ∃ result, Derives .primary (sign ++ atom) result := by
  cases signed with
  | plain => exact ⟨value, Derives.plain atom value derived⟩
  | negated minus negates => exact ⟨-value, Derives.negated minus atom value negates derived⟩

private theorem exists_group {sign inside : List Token} {opening closing : Token}
    {value : Binary64} (signed : Sign sign) (opens : opening.kind = .openParen)
    (closes : closing.kind = .closeParen) (derived : Derives .expression inside value) :
    ∃ result, Derives .primary (sign ++ (opening :: inside ++ [closing])) result :=
  signed.exists_primary (Derives.group opening closing inside value opens closes derived)

private theorem Reached.operand_step {depth : Nat} {outer front sign : List Token}
    {token : Token} {next : Configuration} (opened : Opened depth outer) (before : Front front)
    (signed : Sign sign) (goes : moveToken ⟨.afterMinus, depth⟩ token = .goes next) :
    Reached next (outer ++ (front ++ (sign ++ [token]))) := by
  rcases cases_of_goes_afterMinus goes with ⟨value, isNumber, rfl⟩ | ⟨opens, rfl⟩
  · obtain ⟨result, derived⟩ := signed.exists_primary (Derives.number token value isNumber)
    exact Reached.operator depth outer front _ result opened before derived
  · have inner := Opened.group depth outer front sign token opened before signed opens
    have reached := Reached.operand (depth + 1) _ [] inner Front.first
    rw [List.append_nil] at reached
    exact reached

theorem Reached.step {configuration next : Configuration} {tokens : List Token} {token : Token}
    (reached : Reached configuration tokens) (goes : moveToken configuration token = .goes next) :
    Reached next (tokens ++ [token]) := by
  cases reached with
  | operand depth outer front opened before =>
      rw [List.append_assoc]
      rcases cases_of_goes_operand goes with ⟨negates, rfl⟩ | goes
      · exact Reached.afterMinus depth outer front token opened before negates
      · exact Reached.operand_step opened before Sign.plain goes
  | afterMinus depth outer front minus opened before negates =>
      rw [List.append_assoc, List.append_assoc]
      exact Reached.operand_step opened before (Sign.negated minus negates) goes
  | operator depth outer front part value opened before derived =>
      rw [List.append_assoc, List.append_assoc]
      rcases cases_of_goes_operator goes with ⟨operator, is, rfl⟩ | ⟨around, rfl, closes, rfl⟩
      · exact Reached.operand depth outer _ opened
          (Front.joint front part value token operator before derived is)
      · cases opened with
        | group _ outer' front' sign opening opened' before' signed opens =>
            -- the parenthesis closes a group, and the group is a primary of the expression around
            obtain ⟨inside, derivedInside⟩ := before.exists_expression derived
            obtain ⟨result, group⟩ := exists_group signed opens closes derivedInside
            have reached := Reached.operator around outer' front' _ result opened' before' group
            simp only [List.append_assoc, List.cons_append, List.nil_append] at reached ⊢
            exact reached

theorem Reached.walk {configuration last : Configuration} {front tokens : List Token}
    (reached : Reached configuration front) (walked : walk configuration tokens = some last) :
    Reached last (front ++ tokens) := by
  induction tokens generalizing configuration front with
  | nil =>
      cases walked
      rw [List.append_nil]
      exact reached
  | cons token tokens ih =>
      obtain ⟨next, goes, walkedRest⟩ := exists_goes_of_walk_cons walked
      have reachedLast := ih (reached.step goes) walkedRest
      rw [List.append_assoc] at reachedLast
      exact reachedLast

/-- What a walk from the start has taken is the beginning that its configuration stands for. -/
theorem reached_of_walk {last : Configuration} {tokens : List Token}
    (walked : Automaton.walk start tokens = some last) : Reached last tokens :=
  (Reached.operand 0 [] [] Opened.line Front.first).walk walked

theorem exists_sentence_of_walk {tokens : List Token}
    (walked : walk start tokens = some ⟨.operator, 0⟩) :
    ∃ value, Derives .expression tokens value := by
  cases reached_of_walk walked with
  | operator _ outer front part value opened before derived =>
      cases opened
      exact before.exists_expression derived

/-! ### Completions -/

theorem Opened.exists_completion {depth : Nat} {outer expression : List Token}
    {value : Binary64} (opened : Opened depth outer)
    (derived : Derives .expression expression value) :
    ∃ closing result, Derives .expression (outer ++ (expression ++ closing)) result := by
  induction opened generalizing expression value with
  | line =>
      refine ⟨[], value, ?_⟩
      rw [List.append_nil]
      exact derived
  | group depth outer front sign opening _ before signed opens ih =>
      have closes : (Token.mk .closeParen ")" 0).kind = .closeParen := rfl
      obtain ⟨_, group⟩ := exists_group signed opens closes derived
      obtain ⟨_, around⟩ := before.exists_expression group
      obtain ⟨closing, result, whole⟩ := ih around
      refine ⟨Token.mk .closeParen ")" 0 :: closing, result, ?_⟩
      simp only [List.append_assoc, List.cons_append, List.nil_append] at whole ⊢
      exact whole

/-- With an operand where one is missing, the beginning of a sentence can be completed. -/
theorem Reached.exists_completion {configuration : Configuration} {tokens : List Token}
    (reached : Reached configuration tokens) :
    ∃ more value, Derives .expression (tokens ++ more) value := by
  have operand : Derives .atom [Token.number "0" Binary64.zero 0] Binary64.zero :=
    Derives.number _ _ rfl
  cases reached with
  | operand depth outer front opened before =>
      obtain ⟨_, derived⟩ := before.exists_expression (Derives.plain _ _ operand)
      obtain ⟨closing, value, whole⟩ := opened.exists_completion derived
      refine ⟨Token.number "0" Binary64.zero 0 :: closing, value, ?_⟩
      simp only [List.append_assoc, List.cons_append, List.nil_append] at whole ⊢
      exact whole
  | afterMinus depth outer front minus opened before negates =>
      obtain ⟨_, derived⟩ := before.exists_expression (Derives.negated minus _ _ negates operand)
      obtain ⟨closing, value, whole⟩ := opened.exists_completion derived
      refine ⟨Token.number "0" Binary64.zero 0 :: closing, value, ?_⟩
      simp only [List.append_assoc, List.cons_append, List.nil_append] at whole ⊢
      exact whole
  | operator depth outer front part result opened before derived =>
      obtain ⟨_, expression⟩ := before.exists_expression derived
      obtain ⟨closing, value, whole⟩ := opened.exists_completion expression
      refine ⟨closing, value, ?_⟩
      rw [List.append_assoc]
      exact whole

end Automaton
end Abacus
