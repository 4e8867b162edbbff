/-
Derivation trees, and that a sentence has only one.

A tree is a derivation as a piece of data.  Its chains are not left recursive: a chain is a
first part and then links, and its value is folded over the links from the left.
-/

import Abacus.Grammar

namespace Abacus

/-! ### Trees -/

mutual

inductive Tree : Nonterminal → Type where
  | number (token : Token) (value : Binary64) (isNumber : token.kind = .number value) :
      Tree .atom
  | group (opening closing : Token) (opens : opening.kind = .openParen)
      (closes : closing.kind = .closeParen) (inside : Tree .expression) :
      Tree .atom
  | plain (atom : Tree .atom) : Tree .primary
  | negated (minus : Token) (negates : minus.kind = .operator .minus) (atom : Tree .atom) :
      Tree .primary
  | chain (level : Level) (first : Tree level.part) (links : Links level) :
      Tree (.chain level)

/-- What follows the first part of a chain. -/
inductive Links : Level → Type where
  | done (level : Level) : Links level
  | link (level : Level) (joint : Token) (operator : Operator)
      (joins : joint.kind.joint? level = some operator) (part : Tree level.part)
      (more : Links level) :
      Links level

end

mutual

def Tree.tokens : {nonterminal : Nonterminal} → Tree nonterminal → List Token
  | _, .number token _ _ => [token]
  | _, .group opening closing _ _ inside => opening :: inside.tokens ++ [closing]
  | _, .plain atom => atom.tokens
  | _, .negated minus _ atom => minus :: atom.tokens
  | _, .chain _ first links => first.tokens ++ links.tokens

def Links.tokens : {level : Level} → Links level → List Token
  | _, .done _ => []
  | _, .link _ joint _ _ part more => joint :: part.tokens ++ more.tokens

end

mutual

def Tree.value : {nonterminal : Nonterminal} → Tree nonterminal → Binary64
  | _, .number _ value _ => value
  | _, .group _ _ _ _ inside => inside.value
  | _, .plain atom => atom.value
  | _, .negated _ _ atom => -atom.value
  | _, .chain _ first links => links.fold first.value

/-- The value of a chain whose value in front of the links is given. -/
def Links.fold : {level : Level} → Links level → Binary64 → Binary64
  | _, .done _, value => value
  | _, .link _ _ operator _ part more, value => more.fold (operator.apply value part.value)

end

/-! ### Trees and the relation `Derives` -/

mutual

theorem Tree.derives {nonterminal : Nonterminal} (tree : Tree nonterminal) :
    Derives nonterminal tree.tokens tree.value := by
  cases tree with
  | number token value isNumber =>
      exact Derives.number token value isNumber
  | group opening closing opens closes inside =>
      exact Derives.group opening closing inside.tokens inside.value opens closes inside.derives
  | plain atom =>
      exact Derives.plain atom.tokens atom.value atom.derives
  | negated minus negates atom =>
      exact Derives.negated minus atom.tokens atom.value negates atom.derives
  | chain level first links =>
      exact links.derives first.tokens first.value
        (Derives.single level first.tokens first.value first.derives)

theorem Links.derives {level : Level} (links : Links level) (front : List Token)
    (value : Binary64) (derived : Derives (.chain level) front value) :
    Derives (.chain level) (front ++ links.tokens) (links.fold value) := by
  cases links with
  | done level =>
      simp only [Links.tokens, Links.fold, List.append_nil]
      exact derived
  | link level joint operator joins part more =>
      have longer := Derives.joined level joint operator front part.tokens value part.value
        joins derived part.derives
      have whole := more.derives (front ++ joint :: part.tokens)
        (operator.apply value part.value) longer
      rw [List.append_assoc] at whole
      exact whole

end

def Links.snoc : {level : Level} → Links level → (joint : Token) → (operator : Operator) →
    joint.kind.joint? level = some operator → Tree level.part → Links level
  | _, .done level, joint, operator, joins, last =>
      .link level joint operator joins last (.done level)
  | _, .link level first operator' joins' part more, joint, operator, joins, last =>
      .link level first operator' joins' part (more.snoc joint operator joins last)

theorem Links.tokens_snoc {level : Level} (links : Links level) (joint : Token)
    (operator : Operator) (joins : joint.kind.joint? level = some operator)
    (last : Tree level.part) :
    (links.snoc joint operator joins last).tokens = links.tokens ++ joint :: last.tokens := by
  cases links with
  | done level => simp only [Links.snoc, Links.tokens, List.append_nil, List.nil_append]
  | link level first operator' joins' part more =>
      simp only [Links.snoc, Links.tokens, more.tokens_snoc joint operator joins last,
        List.cons_append, List.append_assoc]

theorem Links.fold_snoc {level : Level} (links : Links level) (joint : Token)
    (operator : Operator) (joins : joint.kind.joint? level = some operator)
    (last : Tree level.part) :
    ∀ value, (links.snoc joint operator joins last).fold value =
      operator.apply (links.fold value) last.value := by
  cases links with
  | done level =>
      intro value
      rfl
  | link level first operator' joins' part more =>
      intro value
      have tail := more.fold_snoc joint operator joins last
      simp only [Links.snoc, Links.fold, tail]

theorem Derives.exists_tree {nonterminal : Nonterminal} {tokens : List Token}
    {value : Binary64} (derived : Derives nonterminal tokens value) :
    ∃ tree : Tree nonterminal, tree.tokens = tokens ∧ tree.value = value := by
  induction derived with
  | number token value isNumber =>
      exact ⟨.number token value isNumber, rfl, rfl⟩
  | group opening closing inside value opens closes _ ih =>
      obtain ⟨tree, sameTokens, sameValue⟩ := ih
      refine ⟨.group opening closing opens closes tree, ?_, sameValue⟩
      simp only [Tree.tokens, sameTokens]
  | plain tokens value _ ih =>
      obtain ⟨tree, sameTokens, sameValue⟩ := ih
      exact ⟨.plain tree, sameTokens, sameValue⟩
  | negated minus tokens value negates _ ih =>
      obtain ⟨tree, sameTokens, sameValue⟩ := ih
      refine ⟨.negated minus negates tree, ?_, ?_⟩
      · simp only [Tree.tokens, sameTokens]
      · simp only [Tree.value, sameValue]
  | single level tokens value _ ih =>
      obtain ⟨tree, sameTokens, sameValue⟩ := ih
      refine ⟨.chain level tree (.done level), ?_, sameValue⟩
      simp only [Tree.tokens, Links.tokens, sameTokens, List.append_nil]
  | joined level joint operator before after left right joins _ _ ihLeft ihRight =>
      obtain ⟨whole, tokensLeft, valueLeft⟩ := ihLeft
      obtain ⟨part, tokensRight, valueRight⟩ := ihRight
      cases whole with
      | chain level first links =>
          refine ⟨.chain level first (links.snoc joint operator joins part), ?_, ?_⟩
          · simp only [Tree.tokens, Links.tokens_snoc, ← tokensLeft, tokensRight,
              List.append_assoc]
          · simp only [Tree.value, Links.fold_snoc, ← valueLeft, valueRight]

theorem derives_iff_exists_tree (nonterminal : Nonterminal) (tokens : List Token)
    (value : Binary64) :
    Derives nonterminal tokens value ↔
      ∃ tree : Tree nonterminal, tree.tokens = tokens ∧ tree.value = value := by
  constructor
  · exact Derives.exists_tree
  · rintro ⟨tree, rfl, rfl⟩
    exact tree.derives

/-! ### Where a phrase ends -/

/-- The operators that a phrase can go on with. -/
def Nonterminal.takes : Nonterminal → Operator → Bool
  | .atom, _ => false
  | .primary, _ => false
  | .chain .product, operator => decide (operator.level = .product)
  | .chain .sum, _ => true

/-- No phrase of the nonterminal goes on with the token. -/
def Nonterminal.EndsAt (nonterminal : Nonterminal) (token : Token) : Prop :=
  ∀ operator, token.kind = .operator operator → nonterminal.takes operator = false

theorem Nonterminal.EndsAt.of_chain {level : Level} {token : Token}
    (ends : (Nonterminal.chain level).EndsAt token) : level.part.EndsAt token := by
  intro operator is
  have refused := ends operator is
  cases level with
  | product => rfl
  | sum => cases refused

theorem Nonterminal.endsAt_of_joint {level : Level} {token : Token} {operator : Operator}
    (joins : token.kind.joint? level = some operator) : level.part.EndsAt token := by
  obtain ⟨is, atLevel⟩ := (Kind.joint?_eq_some_iff level token.kind operator).mp joins
  intro other same
  rw [is] at same
  cases same
  cases level with
  | product => rfl
  | sum => simp only [Level.part, Nonterminal.takes, atLevel, reduceCtorEq, decide_false]

theorem Nonterminal.not_endsAt_of_joint {level : Level} {token : Token} {operator : Operator}
    (joins : token.kind.joint? level = some operator) :
    ¬ (Nonterminal.chain level).EndsAt token := by
  obtain ⟨is, atLevel⟩ := (Kind.joint?_eq_some_iff level token.kind operator).mp joins
  intro ends
  have refused := ends operator is
  cases level with
  | product =>
      simp only [Nonterminal.takes, atLevel, decide_true, Bool.true_eq_false] at refused
  | sum => cases refused

def Nonterminal.EndsBefore (nonterminal : Nonterminal) (rest : List Token) : Prop :=
  ∀ token ∈ rest.head?, nonterminal.EndsAt token

theorem Nonterminal.endsBefore_nil (nonterminal : Nonterminal) :
    nonterminal.EndsBefore [] := by
  intro token absent
  cases absent

theorem Nonterminal.endsBefore_cons {nonterminal : Nonterminal} {token : Token}
    (ends : nonterminal.EndsAt token) (rest : List Token) :
    nonterminal.EndsBefore (token :: rest) := by
  intro first isFirst
  cases isFirst
  exact ends

theorem Nonterminal.endsBefore_closeParen (nonterminal : Nonterminal) (token : Token)
    (rest : List Token) (closes : token.kind = .closeParen) :
    nonterminal.EndsBefore (token :: rest) := by
  apply Nonterminal.endsBefore_cons
  intro operator is
  rw [closes] at is
  cases is

/-! ### A sentence has one derivation -/

private theorem Tree.exists_cons_of_atom (tree : Tree .atom) :
    ∃ token more, tree.tokens = token :: more ∧ token.kind ≠ .operator .minus := by
  cases tree with
  | number token value isNumber =>
      refine ⟨token, [], rfl, ?_⟩
      rw [isNumber]
      exact Kind.noConfusion
  | group opening closing opens closes inside =>
      refine ⟨opening, inside.tokens ++ [closing], rfl, ?_⟩
      rw [opens]
      exact Kind.noConfusion

private theorem Tree.atom_ne_minus (tree : Tree .atom) (minus : Token)
    (negates : minus.kind = .operator .minus) (rest other : List Token)
    (same : tree.tokens ++ rest = minus :: other) : False := by
  obtain ⟨token, more, starts, differs⟩ := tree.exists_cons_of_atom
  rw [starts, List.cons_append] at same
  obtain ⟨rfl, -⟩ := List.cons.inj same
  exact differs negates

private theorem Links.endsBefore {level : Level} (links : Links level) (rest : List Token)
    (ends : (Nonterminal.chain level).EndsBefore rest) :
    level.part.EndsBefore (links.tokens ++ rest) := by
  cases links with
  | done level =>
      intro token first
      exact (ends token first).of_chain
  | link level joint operator joins part more =>
      exact Nonterminal.endsBefore_cons (Nonterminal.endsAt_of_joint joins) _

/-- The tree is the only one at the front of its tokens, whatever follows, if it
ends in front of what follows. -/
def Tree.Unique {nonterminal : Nonterminal} (left : Tree nonterminal) : Prop :=
  ∀ (right : Tree nonterminal) (restLeft restRight : List Token),
    left.tokens ++ restLeft = right.tokens ++ restRight →
    nonterminal.EndsBefore restLeft → nonterminal.EndsBefore restRight →
    left = right ∧ restLeft = restRight

def Links.Unique {level : Level} (left : Links level) : Prop :=
  ∀ (right : Links level) (restLeft restRight : List Token),
    left.tokens ++ restLeft = right.tokens ++ restRight →
    (Nonterminal.chain level).EndsBefore restLeft →
    (Nonterminal.chain level).EndsBefore restRight →
    left = right ∧ restLeft = restRight

private theorem Tree.unique_number (token : Token) (value : Binary64)
    (isNumber : token.kind = .number value) :
    (Tree.number token value isNumber).Unique := by
  intro right restLeft restRight same _ _
  cases right with
  | number token' value' isNumber' =>
      obtain ⟨rfl, rfl⟩ := List.cons.inj same
      rw [isNumber] at isNumber'
      cases isNumber'
      exact ⟨rfl, rfl⟩
  | group opening closing opens closes inside =>
      obtain ⟨rfl, -⟩ := List.cons.inj same
      rw [isNumber] at opens
      cases opens

private theorem Tree.unique_group (opening closing : Token) (opens : opening.kind = .openParen)
    (closes : closing.kind = .closeParen) (inside : Tree .expression)
    (unique : inside.Unique) :
    (Tree.group opening closing opens closes inside).Unique := by
  intro right restLeft restRight same _ _
  cases right with
  | number token value isNumber =>
      obtain ⟨rfl, -⟩ := List.cons.inj same
      rw [isNumber] at opens
      cases opens
  | group opening' closing' opens' closes' inside' =>
      simp only [Tree.tokens, List.cons_append, List.append_assoc, List.nil_append,
        List.cons.injEq] at same
      obtain ⟨rfl, sameInside⟩ := same
      obtain ⟨rfl, sameRest⟩ := unique inside' (closing :: restLeft) (closing' :: restRight)
        sameInside (Nonterminal.endsBefore_closeParen _ closing restLeft closes)
        (Nonterminal.endsBefore_closeParen _ closing' restRight closes')
      obtain ⟨rfl, rfl⟩ := List.cons.inj sameRest
      exact ⟨rfl, rfl⟩

private theorem Tree.unique_plain (atom : Tree .atom) (unique : atom.Unique) :
    (Tree.plain atom).Unique := by
  intro right restLeft restRight same _ _
  cases right with
  | plain atom' =>
      obtain ⟨rfl, sameRest⟩ := unique atom' restLeft restRight same
        (fun _ _ _ _ => rfl) (fun _ _ _ _ => rfl)
      exact ⟨rfl, sameRest⟩
  | negated minus negates atom' =>
      exact (atom.atom_ne_minus minus negates _ _ same).elim

private theorem Tree.unique_negated (minus : Token) (negates : minus.kind = .operator .minus)
    (atom : Tree .atom) (unique : atom.Unique) :
    (Tree.negated minus negates atom).Unique := by
  intro right restLeft restRight same _ _
  cases right with
  | plain atom' =>
      exact (atom'.atom_ne_minus minus negates _ _ same.symm).elim
  | negated minus' negates' atom' =>
      obtain ⟨rfl, sameAtom⟩ := List.cons.inj same
      obtain ⟨rfl, sameRest⟩ := unique atom' restLeft restRight sameAtom
        (fun _ _ _ _ => rfl) (fun _ _ _ _ => rfl)
      exact ⟨rfl, sameRest⟩

/-- The first part of a chain ends where a joint of the level stands or where the
chain ends, so it is found first and the links after it. -/
private theorem Tree.unique_chain (level : Level) (first : Tree level.part)
    (links : Links level) (uniqueFirst : first.Unique) (uniqueLinks : links.Unique) :
    (Tree.chain level first links).Unique := by
  intro right restLeft restRight same endsLeft endsRight
  cases right with
  | chain level first' links' =>
      simp only [Tree.tokens, List.append_assoc] at same
      obtain ⟨rfl, sameLinks⟩ := uniqueFirst first' _ _ same
        (links.endsBefore restLeft endsLeft) (links'.endsBefore restRight endsRight)
      obtain ⟨rfl, sameRest⟩ := uniqueLinks links' restLeft restRight sameLinks
        endsLeft endsRight
      exact ⟨rfl, sameRest⟩

private theorem Links.unique_done (level : Level) : (Links.done level).Unique := by
  intro right restLeft restRight same endsLeft _
  cases right with
  | done level => exact ⟨rfl, same⟩
  | link level joint operator joins part more =>
      simp only [Links.tokens, List.nil_append, List.cons_append] at same
      subst same
      exact (Nonterminal.not_endsAt_of_joint joins (endsLeft joint rfl)).elim

private theorem Links.unique_link (level : Level) (joint : Token) (operator : Operator)
    (joins : joint.kind.joint? level = some operator) (part : Tree level.part)
    (more : Links level) (uniquePart : part.Unique) (uniqueMore : more.Unique) :
    (Links.link level joint operator joins part more).Unique := by
  intro right restLeft restRight same endsLeft endsRight
  cases right with
  | done level =>
      simp only [Links.tokens, List.nil_append, List.cons_append] at same
      subst same
      exact (Nonterminal.not_endsAt_of_joint joins (endsRight joint rfl)).elim
  | link level joint' operator' joins' part' more' =>
      simp only [Links.tokens, List.cons_append, List.append_assoc, List.cons.injEq] at same
      obtain ⟨rfl, samePart⟩ := same
      rw [joins] at joins'
      cases joins'
      obtain ⟨rfl, sameMore⟩ := uniquePart part' _ _ samePart
        (more.endsBefore restLeft endsLeft) (more'.endsBefore restRight endsRight)
      obtain ⟨rfl, sameRest⟩ := uniqueMore more' restLeft restRight sameMore
        endsLeft endsRight
      exact ⟨rfl, sameRest⟩

mutual

theorem Tree.unique : {nonterminal : Nonterminal} → (tree : Tree nonterminal) → tree.Unique
  | _, .number token value isNumber => Tree.unique_number token value isNumber
  | _, .group opening closing opens closes inside =>
      Tree.unique_group opening closing opens closes inside inside.unique
  | _, .plain atom => Tree.unique_plain atom atom.unique
  | _, .negated minus negates atom => Tree.unique_negated minus negates atom atom.unique
  | _, .chain level first links => Tree.unique_chain level first links first.unique links.unique

theorem Links.unique : {level : Level} → (links : Links level) → links.Unique
  | _, .done level => Links.unique_done level
  | _, .link level joint operator joins part more =>
      Links.unique_link level joint operator joins part more part.unique more.unique

end

theorem Tree.eq_of_tokens_eq {nonterminal : Nonterminal} (left right : Tree nonterminal)
    (same : left.tokens = right.tokens) : left = right :=
  (left.unique right [] [] (by rw [same]) (Nonterminal.endsBefore_nil _)
    (Nonterminal.endsBefore_nil _)).1

theorem Derives.value_unique {nonterminal : Nonterminal} {tokens : List Token}
    {left right : Binary64} (derivedLeft : Derives nonterminal tokens left)
    (derivedRight : Derives nonterminal tokens right) : left = right := by
  obtain ⟨treeLeft, rfl, rfl⟩ := derivedLeft.exists_tree
  obtain ⟨treeRight, same, rfl⟩ := derivedRight.exists_tree
  rw [treeRight.eq_of_tokens_eq treeLeft same]

/-- No sentence goes on behind a shorter one with a token at which the phrase ends. -/
theorem Derives.not_append_cons {nonterminal : Nonterminal} {sentence more : List Token}
    {next : Token} {value other : Binary64} (derived : Derives nonterminal sentence value)
    (ends : nonterminal.EndsAt next) :
    ¬ Derives nonterminal (sentence ++ next :: more) other := by
  intro derivedLonger
  obtain ⟨tree, rfl, -⟩ := derived.exists_tree
  obtain ⟨longer, same, -⟩ := derivedLonger.exists_tree
  have both := longer.unique tree [] (next :: more) (by rw [List.append_nil, same])
    (Nonterminal.endsBefore_nil _) (Nonterminal.endsBefore_cons ends more)
  cases both.2

end Abacus
