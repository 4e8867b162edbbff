/-
The grammar of expressions, with the value of every sentence.

Chains are left recursive, so their operators apply strictly from the left, and there is at
most one minus in front of an atom.  How a sentence is found is left to the evaluator.
-/

import Abacus.Token

namespace Abacus

inductive Level where
  | product
  | sum
deriving DecidableEq

def Operator.level : Operator → Level
  | .plus => .sum
  | .minus => .sum
  | .times => .product
  | .divide => .product

inductive Nonterminal where
  | atom
  | primary
  | chain (level : Level)
deriving DecidableEq

namespace Nonterminal

abbrev term : Nonterminal :=
  chain .product

abbrev expression : Nonterminal :=
  chain .sum

end Nonterminal

/-- The phrases that the operators of a level join. -/
def Level.part : Level → Nonterminal
  | .product => .primary
  | .sum => .term

def Kind.joint? (level : Level) : Kind → Option Operator
  | operator joint => if joint.level = level then some joint else none
  | _ => none

/-- The tokens are a sentence of the nonterminal, and the sentence has the value. -/
inductive Derives : Nonterminal → List Token → Binary64 → Prop where
  | number (token : Token) (value : Binary64)
      (isNumber : token.kind = .number value) :
      Derives .atom [token] value
  | group (opening closing : Token) (inside : List Token) (value : Binary64)
      (opens : opening.kind = .openParen) (closes : closing.kind = .closeParen)
      (derived : Derives .expression inside value) :
      Derives .atom (opening :: inside ++ [closing]) value
  | plain (tokens : List Token) (value : Binary64)
      (derived : Derives .atom tokens value) :
      Derives .primary tokens value
  | negated (minus : Token) (tokens : List Token) (value : Binary64)
      (negates : minus.kind = .operator .minus)
      (derived : Derives .atom tokens value) :
      Derives .primary (minus :: tokens) (-value)
  | single (level : Level) (tokens : List Token) (value : Binary64)
      (derived : Derives level.part tokens value) :
      Derives (.chain level) tokens value
  | joined (level : Level) (joint : Token) (operator : Operator)
      (before after : List Token) (left right : Binary64)
      (joins : joint.kind.joint? level = some operator)
      (derivedLeft : Derives (.chain level) before left)
      (derivedRight : Derives level.part after right) :
      Derives (.chain level) (before ++ joint :: after) (operator.apply left right)

namespace Kind

theorem joint?_eq_some_iff (level : Level) (kind : Kind) (joint : Operator) :
    kind.joint? level = some joint ↔ kind = .operator joint ∧ joint.level = level := by
  cases kind with
  | operator found =>
      simp only [joint?, Option.ite_none_right_eq_some, Option.some.injEq, operator.injEq]
      constructor
      · intro ⟨same, found⟩
        subst found
        exact ⟨rfl, same⟩
      · intro ⟨found, same⟩
        subst found
        exact ⟨same, rfl⟩
  | number value => simp [joint?]
  | openParen => simp [joint?]
  | closeParen => simp [joint?]
  | lineEnd => simp [joint?]
  | inputEnd => simp [joint?]

end Kind
end Abacus
