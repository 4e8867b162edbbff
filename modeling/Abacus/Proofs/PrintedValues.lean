/-
Printed values are read again.

The shortest text was checked to read back when it was chosen, or it is the exact magnitude.
The text with a fixed number of places has lost digits: its value may be another one, but
that value is printed in the same way.
-/

import Abacus.Proofs.Embedding
import Abacus.Proofs.Nearest
import Abacus.Proofs.Relabelling
import Abacus.Proofs.Transcript

namespace Abacus

/-! ### Signs -/

namespace Binary64

theorem code_lt (value : Binary64) : value.code < Nat.pow 2 63 :=
  Nat.mod_lt _ (pow_two_pos 63)

theorem infinityCode_lt : infinityCode < Nat.pow 2 63 := by
  decide

theorem toNat_bits_ofCode (negative : Bool) {code : Nat} (small : code < Nat.pow 2 63) :
    (ofCode negative code).bits.toNat = (if negative then Nat.pow 2 63 else 0) + code := by
  simp only [Nat.pow_eq] at small
  simp only [ofCode, Nat.pow_eq, UInt64.toNat_ofNat']
  cases negative with
  | false => exact Nat.mod_eq_of_lt (by simp only [Bool.false_eq_true, if_false]; omega)
  | true => exact Nat.mod_eq_of_lt (by simp only [if_true]; omega)

theorem code_ofCode (negative : Bool) {code : Nat} (small : code < Nat.pow 2 63) :
    (ofCode negative code).code = code := by
  rw [Binary64.code, toNat_bits_ofCode negative small]
  cases negative with
  | false =>
      rw [if_neg Bool.false_ne_true, Nat.zero_add]
      exact Nat.mod_eq_of_lt small
  | true =>
      rw [if_pos rfl, Nat.add_mod_left]
      exact Nat.mod_eq_of_lt small

theorem negative_ofCode (negative : Bool) {code : Nat} (small : code < Nat.pow 2 63) :
    (ofCode negative code).negative = negative := by
  rw [Binary64.negative, toNat_bits_ofCode negative small]
  cases negative with
  | false =>
      rw [if_neg Bool.false_ne_true, Nat.zero_add]
      exact decide_eq_false (Nat.not_le_of_lt small)
  | true =>
      rw [if_pos rfl]
      exact decide_eq_true (Nat.le_add_right _ _)

theorem ofCode_code (value : Binary64) : ofCode value.negative value.code = value := by
  have same : (ofCode value.negative value.code).bits.toNat = value.bits.toNat := by
    rw [toNat_bits_ofCode _ value.code_lt]
    cases sign : value.negative with
    | false =>
        have small := of_decide_eq_false sign
        rw [if_neg Bool.false_ne_true, Nat.zero_add]
        exact Nat.mod_eq_of_lt (Nat.lt_of_not_le small)
    | true =>
        have large := of_decide_eq_true sign
        have bounded : value.bits.toNat < 2 ^ 64 := value.bits.toNat_lt
        rw [if_pos rfl, Binary64.code]
        simp only [Nat.pow_eq] at large ⊢
        omega
  exact congrArg Binary64.mk (UInt64.toNat_inj.mp same)

private theorem xor_two_pow {number places : Nat} (small : number < 2 ^ places) :
    number ^^^ 2 ^ places = 2 ^ places + number := by
  have positive := Nat.two_pow_pos places
  have quotient : (number ^^^ 2 ^ places) / 2 ^ places = 1 := by
    rw [Nat.xor_div_two_pow, Nat.div_eq_of_lt small, Nat.div_self positive, Nat.zero_xor]
  have remainder : (number ^^^ 2 ^ places) % 2 ^ places = number := by
    rw [Nat.xor_mod_two_pow, Nat.mod_eq_of_lt small, Nat.mod_self, Nat.xor_zero]
  have parts := Nat.div_add_mod (number ^^^ 2 ^ places) (2 ^ places)
  rw [quotient, remainder, Nat.mul_one] at parts
  exact parts.symm

theorem neg_ofCode {code : Nat} (small : code < Nat.pow 2 63) :
    -ofCode false code = ofCode true code := by
  change Binary64.mk ((ofCode false code).bits ^^^ 0x8000000000000000) = _
  have flipped := xor_two_pow small
  rw [Binary64.mk.injEq, ← UInt64.toNat_inj, UInt64.toNat_xor, toNat_bits_ofCode false small,
    toNat_bits_ofCode true small, if_neg Bool.false_ne_true, if_pos rfl, Nat.zero_add]
  exact flipped

end Binary64

/-! ### Numerals that stand alone -/

theorem Decimal.wellFormed_numeral (decimal : Decimal) : decimal.numeral.WellFormed := by
  have longer := decimal.places_lt_length_digits
  refine ⟨?_, ?_, ?_⟩
  · intro nothing
    have length := congrArg List.length nothing
    simp only [Decimal.numeral, List.length_take, List.length_nil] at length
    omega
  · intro digit member
    exact decimal.isDigit_of_mem_digits digit (List.mem_of_mem_take member)
  · intro digits behind digit member
    simp only [Decimal.numeral, Option.mem_def, Option.ite_none_left_eq_some,
      Option.some.injEq] at behind
    rw [← behind.2] at member
    exact decimal.isDigit_of_mem_digits digit (List.mem_of_mem_drop member)

theorem Decimal.value?_numeral (decimal : Decimal) :
    decimal.numeral.value? = decimal.code?.map (Binary64.ofCode false) := by
  rw [Numeral.value?, decimal.numeral_decimal]

theorem Numeral.pieces {numeral : Numeral} {value : Binary64} (wellFormed : numeral.WellFormed)
    (denotes : numeral.value? = some value) (position : Nat) :
    ∃ last, Pieces position numeral.chars
      [Token.number (String.ofList numeral.chars) value position] (.ok (.inputEnd last)) := by
  have pieces := Pieces.token position [] [] _ [] _ (List.forall_mem_nil _)
    (Token.Spelled.number numeral value position wellFormed denotes) rfl
    (fun _ _ _ absent => nomatch absent) (Pieces.ended _ [] (List.forall_mem_nil _))
  rw [Token.span_number, List.append_nil] at pieces
  exact ⟨_, pieces⟩

theorem evaluate_eq_of_pieces {line : String} {sentence : List Token} {value : Binary64}
    {last : Nat} (pieces : Pieces 0 line.toList sentence (.ok (.inputEnd last)))
    (derived : Derives .expression sentence value) : evaluate line = .ok value :=
  evaluate_eq_ok_of_sentence (Scanner.answers_of_pieces pieces) derived rfl

theorem evaluate_signed_numeral {numeral : Numeral} {value : Binary64}
    (wellFormed : numeral.WellFormed) (denotes : numeral.value? = some value) (negative : Bool) :
    evaluate ((if negative then "-" else "") ++ String.ofList numeral.chars) =
      .ok (if negative then -value else value) := by
  have chain {tokens : List Token} {result : Binary64} (primary : Derives .primary tokens result) :
      Derives .expression tokens result :=
    Derives.single .sum tokens result (Derives.single .product tokens result primary)
  cases negative with
  | false =>
      obtain ⟨last, pieces⟩ := Numeral.pieces wellFormed denotes 0
      have derived := chain (Derives.plain _ _ (Derives.number
        (Token.number (String.ofList numeral.chars) value 0) value rfl))
      apply evaluate_eq_of_pieces _ derived
      · exact last
      · simpa using pieces
  | true =>
      obtain ⟨last, pieces⟩ := Numeral.pieces wellFormed denotes 1
      have minus := Pieces.single (rfl : (Kind.operator .minus).character? = some '-')
        (fun _ => Kind.noConfusion) pieces
      have derived := chain (Derives.negated
        ⟨.operator .minus, "-", 0⟩ _ _ rfl (Derives.number
          (Token.number (String.ofList numeral.chars) value 1) value rfl))
      apply evaluate_eq_of_pieces _ derived
      · exact last
      · simpa using minus

/-! ### Values with a decimal for their magnitude -/

namespace Binary64

theorem textWith_of_isFinite {value : Binary64} (finite : value.isFinite = true)
    (numeralOf : Nat → Numeral) :
    value.textWith numeralOf =
      (if value.negative then "-" else "") ++ String.ofList (numeralOf value.code).chars := by
  have isNumber : value.isNaN = false :=
    decide_eq_false (Nat.not_lt_of_lt (of_decide_eq_true finite))
  simp only [textWith, isNumber, finite, Bool.false_eq_true, if_false, if_true]

/-- A finite value that is written with a decimal is read as the magnitude nearest to the
decimal, with the sign of the value. -/
theorem evaluate_textWith {value : Binary64} (finite : value.isFinite = true)
    {decimalOf : Nat → Decimal} {reread : Nat}
    (reads : (decimalOf value.code).code? = some reread) :
    evaluate (value.textWith fun code => (decimalOf code).numeral) =
      .ok (ofCode value.negative reread) := by
  have small : reread < Nat.pow 2 63 :=
    Nat.lt_trans (nearestCode?_lt _ _ _ reads) infinityCode_lt
  have denotes : (decimalOf value.code).numeral.value? = some (ofCode false reread) := by
    rw [Decimal.value?_numeral, reads, Option.map_some]
  have read := evaluate_signed_numeral (decimalOf value.code).wellFormed_numeral denotes
    value.negative
  rw [neg_ofCode small] at read
  rw [textWith_of_isFinite finite, read]
  cases value.negative <;> rfl

/-! ### The shortest text -/

theorem code?_of_candidate? {code zeros places : Nat} {decimal : Decimal}
    (chosen : candidate? code zeros places = some decimal) : decimal.code? = some code := by
  unfold candidate? at chosen
  simp only at chosen
  split at chosen
  · next lower =>
      cases chosen
      rw [Bool.and_eq_true] at lower
      exact beq_iff_eq.mp lower.1
  · split at chosen
    · next upper =>
        cases chosen
        exact beq_iff_eq.mp upper
    · cases chosen

theorem code?_shortest {code : Nat} (finite : code < infinityCode) :
    (shortest code).code? = some code := by
  unfold shortest
  cases found : (grids code).findSome? fun grid => candidate? code grid.1 grid.2 with
  | none => exact Decimal.code?_ofCode finite
  | some decimal =>
      obtain ⟨grid, _, chosen⟩ := List.exists_of_findSome?_eq_some found
      exact code?_of_candidate? chosen

theorem evaluate_text_of_isFinite {value : Binary64} (finite : value.isFinite = true) :
    evaluate value.text = .ok value := by
  have reads := code?_shortest (of_decide_eq_true finite)
  rw [text, evaluate_textWith finite reads, ofCode_code]

/-- The text of a finite value is an expression with that value, bit for bit, and it is the
text that records and tokens show the value with. -/
theorem evaluate_text (value : Binary64) (finite : value.isFinite = true) :
    evaluate value.text = .ok value ∧
      (∀ line, (Event.evaluated line value).text? =
        some ("evaluated " ++ Text.quoted line ++ " to " ++ value.text)) ∧
      (∀ token : Token, token.value = value →
        toString token = "Token\x7bkind: " ++ token.kind.name ++ ", text: " ++
          Text.quoted token.text ++ ", value: " ++ value.text ++ "\x7d") := by
  refine ⟨evaluate_text_of_isFinite finite, fun line => rfl, ?_⟩
  rintro token rfl
  rfl

/-- The power of ten is not the value, which lies next to it, but no other value is nearer. -/
theorem evaluate_text_of_power :
    Binary64.isFinite ⟨0xc4b52d02c7e14af6⟩ = true ∧
      text ⟨0xc4b52d02c7e14af6⟩ = "-100000000000000000000000" ∧
      evaluate "-100000000000000000000000" = .ok ⟨0xc4b52d02c7e14af6⟩ := by
  have finite : Binary64.isFinite ⟨0xc4b52d02c7e14af6⟩ = true := by decide
  have shown : text ⟨0xc4b52d02c7e14af6⟩ = "-100000000000000000000000" := by decide +kernel
  have valued := (evaluate_text _ finite).1
  rw [shown] at valued
  exact ⟨finite, shown, valued⟩

/-! ### The text with a number of places -/

/-- The text with a number of places is an expression.  Its value may be another one, but
that value has the same text. -/
theorem exists_evaluate_inPlaces {value : Binary64} (finite : value.isFinite = true)
    (places : Nat) :
    ∃ reread, evaluate (value.inPlaces places) = .ok reread ∧
      reread.inPlaces places = value.inPlaces places := by
  obtain ⟨code, reads, same⟩ := exists_code?_rounded (of_decide_eq_true finite) places
  have isFinite := nearestCode?_lt _ _ _ reads
  have small : code < Nat.pow 2 63 := Nat.lt_trans isFinite infinityCode_lt
  have finiteAgain : (ofCode value.negative code).isFinite = true := by
    rw [Binary64.isFinite, code_ofCode _ small]
    exact decide_eq_true isFinite
  refine ⟨ofCode value.negative code, evaluate_textWith finite reads, ?_⟩
  rw [inPlaces, inPlaces, textWith_of_isFinite finite, textWith_of_isFinite finiteAgain,
    negative_ofCode _ small, code_ofCode _ small, same]

theorem isWhiteSpace_of_mem_inPlaces {value : Binary64} (finite : value.isFinite = true)
    (places : Nat) :
    ∀ character ∈ (value.inPlaces places).toList, Unicode.isWhiteSpace character = false := by
  intro character member
  rw [inPlaces, textWith_of_isFinite finite, String.toList_append, String.toList_ofList] at member
  rcases List.mem_append.mp member with isSign | inNumeral
  · cases sign : value.negative with
    | false =>
        rw [sign] at isSign
        cases isSign
    | true =>
        rw [sign] at isSign
        rw [List.mem_singleton.mp isSign]
        decide
  · have isNumeral : IsNumeral (rounded value.code places).numeral.chars :=
      ⟨_, Decimal.wellFormed_numeral _, rfl⟩
    rcases isNumeral.digit_or_point character inNumeral with digit | rfl
    · have lower : 48 ≤ character.toNat := (Char.isDigit_iff_toNat.mp digit).1
      have upper : character.toNat ≤ 57 := (Char.isDigit_iff_toNat.mp digit).2
      exact Unicode.isWhiteSpace_eq_false_of_visible (by omega) (by omega)
    · decide

end Binary64

/-! ### Answers that are given as lines -/

namespace Session

/-- A line with a value is neither blank nor the command to leave. -/
theorem reply_of_value (session : Session) {line : String} {value : Binary64}
    (valued : evaluate (Text.trim line) = .ok value) :
    (session.reply line).1 = ((value.fixed? session.precision).map ("= " ++ ·)).elim
      Reply.refused Reply.print := by
  have valueless : ∀ text ∈ [exitCommand, ""], (evaluate text).isOk = false := by
    decide +kernel
  have other (text : String) (member : text ∈ [exitCommand, ""]) : Text.trim line ≠ text := by
    rintro rfl
    have nothing := valueless _ member
    rw [valued] at nothing
    cases nothing
  have stays := other exitCommand (by decide)
  have notBlank := other "" (by decide)
  rw [session.reply_fst_eq stays notBlank, valued]
  rfl

/-- A value that a session has printed and is given as the next line is answered by the same
text. -/
theorem reply_printed (session : Session) (line printed : String) (value : Binary64)
    (valued : (session.evaluator.readWhole (Text.trim line)).1 = .ok value)
    (finite : value.isFinite = true)
    (answered : (session.reply line).1 = .print ("= " ++ printed)) :
    ((session.reply line).2.reply printed).1 = .print ("= " ++ printed) := by
  rw [Evaluator.readWhole_fst_eq_evaluate] at valued
  rw [session.reply_of_value valued] at answered
  rcases Nat.lt_or_ge Binary64.greatestPlaces session.precision with many | few
  · rw [Binary64.fixed?, if_neg (Nat.not_le_of_lt many)] at answered
    cases answered
  · rw [Binary64.fixed?_eq few] at answered
    simp only [Option.map_some, Option.elim_some, Reply.print.injEq,
      String.append_right_inj] at answered
    subst answered
    have clean := Binary64.isWhiteSpace_of_mem_inPlaces finite session.precision
    have trimmed : Text.trim (value.inPlaces session.precision) = _ :=
      Text.trim_eq_self (fun character first => clean character (List.mem_of_mem_head? first))
        (fun character last => clean character (List.mem_of_mem_getLast? last))
    obtain ⟨reread, revalued, same⟩ :=
      Binary64.exists_evaluate_inPlaces finite session.precision
    rw [← trimmed] at revalued
    rw [reply_of_value _ revalued, session.precision_reply, Binary64.fixed?_eq few, same]
    rfl

/-- With one place the value changes to the nearest one that is read, and its text does not:
the line `-0.25` is answered by `-0.2`. -/
theorem reply_printed_of_tie :
    (((start 1).evaluator.readWhole (Text.trim " -0.25\n")).1 = .ok ⟨0xbfd0000000000000⟩ ∧
      Binary64.isFinite ⟨0xbfd0000000000000⟩ = true ∧
      ((start 1).reply " -0.25\n").1 = .print ("= " ++ "-0.2")) ∧
      (((start 1).reply " -0.25\n").2.reply "-0.2").1 = .print ("= " ++ "-0.2") := by
  have valued : ((start 1).evaluator.readWhole (Text.trim " -0.25\n")).1 =
      .ok ⟨0xbfd0000000000000⟩ := by decide +kernel
  have finite : Binary64.isFinite ⟨0xbfd0000000000000⟩ = true := by decide
  have answered : ((start 1).reply " -0.25\n").1 = .print ("= " ++ "-0.2") := by decide +kernel
  exact ⟨⟨valued, finite, answered⟩,
    reply_printed (start 1) " -0.25\n" "-0.2" _ valued finite answered⟩

end Session
end Abacus
