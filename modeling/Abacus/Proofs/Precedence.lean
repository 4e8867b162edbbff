/-
Precedence and arithmetic, written out.

`Derives` looks up which operators join a chain and what they compute, and reading looks
into the same tables.  The grammar of this file has no tables: each operator has a rule of
its own, with its level and its operation on floating point numbers.  Both grammars have
the same sentences with the same values, so this one also says which lines have a value.
-/

import Abacus.Proofs.Language

namespace Abacus

inductive Computes : Nonterminal → List Token → Binary64 → Prop where
  | number (token : Token) (value : Binary64) (isNumber : token.kind = .number value) :
      Computes .atom [token] value
  | group (opening closing : Token) (inside : List Token) (value : Binary64)
      (opens : opening.kind = .openParen) (closes : closing.kind = .closeParen)
      (computed : Computes .expression inside value) :
      Computes .atom (opening :: inside ++ [closing]) value
  | plain (tokens : List Token) (value : Binary64) (computed : Computes .atom tokens value) :
      Computes .primary tokens value
  | negated (sign : Token) (tokens : List Token) (value : Binary64)
      (isMinus : sign.kind = .operator .minus) (computed : Computes .atom tokens value) :
      Computes .primary (sign :: tokens) ⟨value.bits ^^^ 0x8000000000000000⟩
  | factor (tokens : List Token) (value : Binary64) (computed : Computes .primary tokens value) :
      Computes .term tokens value
  | times (joint : Token) (before after : List Token) (left right : Binary64)
      (isTimes : joint.kind = .operator .times)
      (computedLeft : Computes .term before left) (computedRight : Computes .primary after right) :
      Computes .term (before ++ joint :: after) (.ofFloat (left.toFloat * right.toFloat))
  | divide (joint : Token) (before after : List Token) (left right : Binary64)
      (isDivide : joint.kind = .operator .divide)
      (computedLeft : Computes .term before left) (computedRight : Computes .primary after right) :
      Computes .term (before ++ joint :: after) (.ofFloat (left.toFloat / right.toFloat))
  | summand (tokens : List Token) (value : Binary64) (computed : Computes .term tokens value) :
      Computes .expression tokens value
  | plus (joint : Token) (before after : List Token) (left right : Binary64)
      (isPlus : joint.kind = .operator .plus)
      (computedLeft : Computes .expression before left)
      (computedRight : Computes .term after right) :
      Computes .expression (before ++ joint :: after) (.ofFloat (left.toFloat + right.toFloat))
  | minus (joint : Token) (before after : List Token) (left right : Binary64)
      (isMinus : joint.kind = .operator .minus)
      (computedLeft : Computes .expression before left)
      (computedRight : Computes .term after right) :
      Computes .expression (before ++ joint :: after) (.ofFloat (left.toFloat - right.toFloat))

section

variable {nonterminal : Nonterminal} {tokens : List Token} {value : Binary64}

theorem Derives.computes (derived : Derives nonterminal tokens value) :
    Computes nonterminal tokens value := by
  induction derived with
  | number token value isNumber => exact .number token value isNumber
  | group opening closing inside value opens closes _ ih =>
      exact .group opening closing inside value opens closes ih
  | plain tokens value _ ih => exact .plain tokens value ih
  | negated minus tokens value negates _ ih => exact .negated minus tokens value negates ih
  | single level tokens value _ ih =>
      cases level with
      | product => exact .factor tokens value ih
      | sum => exact .summand tokens value ih
  | joined level joint operator before after left right joins _ _ ihLeft ihRight =>
      obtain ⟨isOperator, rfl⟩ := (Kind.joint?_eq_some_iff level joint.kind operator).mp joins
      cases operator with
      | plus => exact .plus joint before after left right isOperator ihLeft ihRight
      | minus => exact .minus joint before after left right isOperator ihLeft ihRight
      | times => exact .times joint before after left right isOperator ihLeft ihRight
      | divide => exact .divide joint before after left right isOperator ihLeft ihRight

theorem Computes.derives (computed : Computes nonterminal tokens value) :
    Derives nonterminal tokens value := by
  have joins {level : Level} {joint : Token} {operator : Operator}
      (isOperator : joint.kind = .operator operator) (stands : operator.level = level) :
      joint.kind.joint? level = some operator :=
    (Kind.joint?_eq_some_iff level joint.kind operator).mpr ⟨isOperator, stands⟩
  induction computed with
  | number token value isNumber => exact .number token value isNumber
  | group opening closing inside value opens closes _ ih =>
      exact .group opening closing inside value opens closes ih
  | plain tokens value _ ih => exact .plain tokens value ih
  | negated sign tokens value isMinus _ ih => exact .negated sign tokens value isMinus ih
  | factor tokens value _ ih => exact .single .product tokens value ih
  | times joint before after left right isTimes _ _ ihLeft ihRight =>
      exact .joined .product joint .times before after left right (joins isTimes rfl) ihLeft ihRight
  | divide joint before after left right isDivide _ _ ihLeft ihRight =>
      exact .joined .product joint .divide before after left right (joins isDivide rfl)
        ihLeft ihRight
  | summand tokens value _ ih => exact .single .sum tokens value ih
  | plus joint before after left right isPlus _ _ ihLeft ihRight =>
      exact .joined .sum joint .plus before after left right (joins isPlus rfl) ihLeft ihRight
  | minus joint before after left right isMinus _ _ ihLeft ihRight =>
      exact .joined .sum joint .minus before after left right (joins isMinus rfl) ihLeft ihRight

theorem derives_iff_computes :
    Derives nonterminal tokens value ↔ Computes nonterminal tokens value :=
  ⟨Derives.computes, Computes.derives⟩

end

/-- Which lines have a value, and which value, by the rules of the operators. -/
theorem evaluate_eq_ok_iff_computes (line : String) (value : Binary64) :
    evaluate line = .ok value ↔
      ∃ sentence, (Scanner.ofLine line).phrase = sentence.map .ok ∧
        Computes .expression sentence value := by
  constructor
  · intro accepted
    obtain ⟨sentence, phrased, derived⟩ := Evaluator.exists_sentence_of_readWhole accepted
    exact ⟨sentence, phrased, derives_iff_computes.mp derived⟩
  · rintro ⟨sentence, phrased, computed⟩
    exact Evaluator.empty.readWhole_of_derives phrased (derives_iff_computes.mpr computed)

example : evaluate "1 + 2 * 3" = .ok ⟨0x401c000000000000⟩ := by
  decide +kernel

end Abacus
