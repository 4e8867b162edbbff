/-
Phrases in the place of numbers.

An atom can stand in a sentence for any number that has its value: the tokens are a
sentence again, and it has the same value.  Only the kinds of the tokens count, so the
tokens around the atom may be replaced by others that mean the same.
-/

import Abacus.Proofs.Derivation

namespace Abacus

/-- The tokens with atoms in the place of some numbers that have the same value. -/
inductive Expands : List Token → List Token → Prop where
  | done : Expands [] []
  | same (token other : Token) (tokens others : List Token) (alike : other.kind = token.kind)
      (rest : Expands tokens others) : Expands (token :: tokens) (other :: others)
  | operand (token : Token) (value : Binary64) (atom tokens others : List Token)
      (isNumber : token.kind = .number value) (derived : Derives .atom atom value)
      (rest : Expands tokens others) : Expands (token :: tokens) (atom ++ others)

namespace Expands

theorem map {move : Token → Token} {tokens : List Token}
    (alike : ∀ token ∈ tokens, (move token).kind = token.kind) :
    Expands tokens (tokens.map move) := by
  induction tokens with
  | nil => exact Expands.done
  | cons token tokens ih =>
      rw [List.forall_mem_cons] at alike
      exact Expands.same token _ tokens _ alike.1 (ih alike.2)

theorem append {front back first second : List Token} (expands : Expands front first)
    (expandsBack : Expands back second) : Expands (front ++ back) (first ++ second) := by
  induction expands with
  | done => exact expandsBack
  | same token other tokens others alike _ ih => exact Expands.same token other _ _ alike ih
  | operand token value atom tokens others isNumber derived _ ih =>
      rw [List.append_assoc]
      exact Expands.operand token value atom _ _ isNumber derived ih

theorem exists_append {front back expanded : List Token}
    (expands : Expands (front ++ back) expanded) :
    ∃ first second, expanded = first ++ second ∧ Expands front first ∧ Expands back second := by
  induction front generalizing expanded with
  | nil => exact ⟨[], expanded, rfl, Expands.done, expands⟩
  | cons token front ih =>
      cases expands with
      | same _ other _ others alike rest =>
          obtain ⟨first, second, rfl, expandsFront, expandsBack⟩ := ih rest
          exact ⟨other :: first, second, rfl, Expands.same token other _ _ alike expandsFront,
            expandsBack⟩
      | operand _ value atom _ others isNumber derived rest =>
          obtain ⟨first, second, rfl, expandsFront, expandsBack⟩ := ih rest
          exact ⟨atom ++ first, second, (List.append_assoc _ _ _).symm,
            Expands.operand token value atom _ _ isNumber derived expandsFront, expandsBack⟩

theorem exists_cons {token : Token} {tokens expanded : List Token}
    (expands : Expands (token :: tokens) expanded)
    (notNumber : ∀ value, token.kind ≠ .number value) :
    ∃ other others, expanded = other :: others ∧ other.kind = token.kind ∧
      Expands tokens others := by
  cases expands with
  | same _ other _ others alike rest => exact ⟨other, others, rfl, alike, rest⟩
  | operand _ value atom _ others isNumber derived rest => exact absurd isNumber (notNumber value)

end Expands

/-- A sentence stays a sentence with the same value. -/
theorem Derives.expand {nonterminal : Nonterminal} {tokens expanded : List Token}
    {value : Binary64} (derived : Derives nonterminal tokens value)
    (expands : Expands tokens expanded) : Derives nonterminal expanded value := by
  induction derived generalizing expanded with
  | number token value isNumber =>
      cases expands with
      | same _ other _ others alike rest =>
          cases rest
          exact Derives.number other value (alike.trans isNumber)
      | operand _ other atom _ others isOther derived rest =>
          cases rest
          rw [isNumber] at isOther
          cases isOther
          rw [List.append_nil]
          exact derived
  | group opening closing inside value opens closes _ ih =>
      obtain ⟨opening', others, rfl, sameOpening, rest⟩ :=
        Expands.exists_cons expands (by simp [opens])
      obtain ⟨inside', last, rfl, expandsInside, expandsClosing⟩ := rest.exists_append
      obtain ⟨closing', nothing, rfl, sameClosing, ended⟩ :=
        expandsClosing.exists_cons (by simp [closes])
      cases ended
      exact Derives.group opening' closing' inside' value (sameOpening.trans opens)
        (sameClosing.trans closes) (ih expandsInside)
  | plain tokens value _ ih => exact Derives.plain expanded value (ih expands)
  | negated minus tokens value negates _ ih =>
      obtain ⟨minus', others, rfl, same, rest⟩ := expands.exists_cons (by simp [negates])
      exact Derives.negated minus' others value (same.trans negates) (ih rest)
  | single level tokens value _ ih => exact Derives.single level expanded value (ih expands)
  | joined level joint operator before after left right joins _ _ ihLeft ihRight =>
      have isOperator := ((Kind.joint?_eq_some_iff level joint.kind operator).mp joins).1
      obtain ⟨before', behind, rfl, expandsBefore, rest⟩ := expands.exists_append
      obtain ⟨joint', after', rfl, same, expandsAfter⟩ := rest.exists_cons (by simp [isOperator])
      rw [← same] at joins
      exact Derives.joined level joint' operator before' after' left right joins
        (ihLeft expandsBefore) (ihRight expandsAfter)

end Abacus
