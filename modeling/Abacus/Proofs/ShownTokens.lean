/-
Tokens that are shown alike are alike.

Every part of what is shown ends where the next one begins, whatever the parts are: no name
has a comma, and a quotation mark that belongs to the text is shown behind a backslash.
Values that are not numbers are left out.  There are many of them, and one text.
-/

import Abacus.Proofs.PrintedValues

namespace Abacus

/-! ### Escapes are read back -/

namespace Text

def hexValue (digit : Char) : Nat :=
  if digit.isDigit then digit.toNat - '0'.toNat else digit.toNat - 'a'.toNat + 10

def hexNumber (digits : List Char) : Nat :=
  digits.foldl (fun number digit => 16 * number + hexValue digit) 0

private theorem hexDigit_of_lt {digit : Nat} (small : digit < 16) :
    hexValue digit.digitChar = digit ∧ digit.digitChar ≠ '\x7d' := by
  have all : ∀ digit < 16, hexValue digit.digitChar = digit ∧ digit.digitChar ≠ '\x7d' := by
    decide
  exact all digit small

theorem hexNumber_toDigits (number : Nat) : hexNumber (Nat.toDigits 16 number) = number := by
  induction number using Nat.strongRecOn with
  | ind number ih =>
      rcases Nat.lt_or_ge number 16 with small | large
      · rw [Nat.toDigits_of_lt_base small, hexNumber, List.foldl_cons, List.foldl_nil,
          Nat.mul_zero, Nat.zero_add]
        exact (hexDigit_of_lt small).1
      · have last := hexDigit_of_lt (Nat.mod_lt number (by decide : 0 < 16))
        have front := ih (number / 16) (by omega)
        rw [hexNumber] at front
        rw [Nat.toDigits_of_base_le (by decide) large, hexNumber, List.foldl_append, front,
          List.foldl_cons, List.foldl_nil, last.1]
        exact Nat.div_add_mod number 16

theorem ne_brace_of_mem_toDigits (number : Nat) :
    ∀ digit ∈ Nat.toDigits 16 number, digit ≠ '\x7d' := by
  induction number using Nat.strongRecOn with
  | ind number ih =>
      intro digit member
      rcases Nat.lt_or_ge number 16 with small | large
      · rw [Nat.toDigits_of_lt_base small, List.mem_singleton] at member
        rw [member]
        exact (hexDigit_of_lt small).2
      · rw [Nat.toDigits_of_base_le (by decide) large, List.mem_append, List.mem_singleton]
          at member
        rcases member with inFront | rfl
        · exact ih (number / 16) (by omega) digit inFront
        · exact (hexDigit_of_lt (Nat.mod_lt number (by decide))).2

/-- The letters that stand for something else behind a backslash. -/
def escapeLetters : List Char :=
  ['0', 't', 'r', 'n', 'u']

/-- Reads what stands behind a backslash: the character that is shown so, and what follows. -/
def readEscape : List Char → Option (Char × List Char)
  | [] => none
  | '0' :: rest => some ('\x00', rest)
  | 't' :: rest => some ('\t', rest)
  | 'r' :: rest => some ('\r', rest)
  | 'n' :: rest => some ('\n', rest)
  | 'u' :: rest =>
      let digits := (rest.drop 1).takeWhile (· ≠ '\x7d')
      some (Char.ofNat (hexNumber digits), rest.drop (digits.length + 2))
  | mark :: rest => some (mark, rest)

/-- Reads the character that is shown first, and gives what follows. -/
def readShown : List Char → Option (Char × List Char)
  | [] => none
  | '\\' :: rest => readEscape rest
  | character :: rest => some (character, rest)

private theorem readShown_codePoint (character : Char) (rest : List Char) :
    readShown (codePoint character ++ rest) = some (character, rest) := by
  have digits : (Nat.toDigits 16 character.toNat ++ '\x7d' :: rest).takeWhile (· ≠ '\x7d') =
      Nat.toDigits 16 character.toNat :=
    takeWhile_append_of_stop
      (fun digit member => decide_eq_true (ne_brace_of_mem_toDigits _ digit member))
      (fun next first => by cases first; rfl)
  have parts : codePoint character ++ rest =
      '\\' :: 'u' :: '\x7b' :: (Nat.toDigits 16 character.toNat ++ '\x7d' :: rest) := by
    simp [codePoint]
  rw [parts, readShown, readEscape, List.drop_succ_cons, List.drop_zero, digits,
    hexNumber_toDigits, Char.ofNat_toNat]
  simp

/-- A character that is shown is read back, if no mark is a letter of an escape. -/
theorem readShown_escape {marks : List Char} (free : ∀ mark ∈ marks, mark ∉ escapeLetters)
    (character : Char) (rest : List Char) :
    readShown (escape marks character ++ rest) = some (character, rest) := by
  unfold escape
  split
  · rfl
  · rfl
  · rfl
  · rfl
  · rfl
  · next notNul notTab notReturn notFeed notBackslash =>
      split
      · next isMark =>
          have noLetter := free character isMark
          simp only [escapeLetters, List.mem_cons, List.not_mem_nil, or_false, not_or] at noLetter
          change readEscape (character :: rest) = some (character, rest)
          unfold readEscape
          split <;> simp_all
      · split
        · change readShown (character :: rest) = some (character, rest)
          unfold readShown
          split <;> simp_all
        · exact readShown_codePoint character rest

theorem escape_append_inj {marks : List Char} (free : ∀ mark ∈ marks, mark ∉ escapeLetters)
    {character other : Char} {rest rest' : List Char}
    (same : escape marks character ++ rest = escape marks other ++ rest') :
    character = other ∧ rest = rest' := by
  have read := readShown_escape free character rest
  rw [same, readShown_escape free other rest'] at read
  cases read
  exact ⟨rfl, rfl⟩

private theorem escape_cases (marks : List Char) (character : Char) :
    (∃ shown, escape marks character = '\\' :: shown) ∨
      (escape marks character = [character] ∧ character ∉ marks) := by
  unfold escape
  split
  · exact Or.inl ⟨_, rfl⟩
  · exact Or.inl ⟨_, rfl⟩
  · exact Or.inl ⟨_, rfl⟩
  · exact Or.inl ⟨_, rfl⟩
  · exact Or.inl ⟨_, rfl⟩
  · split
    · exact Or.inl ⟨_, rfl⟩
    · next notMark =>
        split
        · exact Or.inr ⟨rfl, notMark⟩
        · exact Or.inl ⟨_, rfl⟩

/-- Where a mark stands alone, no character is shown. -/
theorem escape_append_ne {marks : List Char} {mark : Char} (isMark : mark ∈ marks)
    (notBackslash : mark ≠ '\\') (character : Char) (rest rest' : List Char) :
    escape marks character ++ rest ≠ mark :: rest' := by
  intro same
  rcases escape_cases marks character with ⟨shown, escaped⟩ | ⟨plain, notMark⟩
  · rw [escaped] at same
    exact notBackslash (List.cons.inj same).1.symm
  · rw [plain] at same
    rw [(List.cons.inj same).1] at notMark
    exact notMark isMark

theorem flatMap_escape_inj {marks : List Char} {mark : Char} (isMark : mark ∈ marks)
    (notBackslash : mark ≠ '\\') (free : ∀ mark ∈ marks, mark ∉ escapeLetters)
    {chars others rest rest' : List Char}
    (same : chars.flatMap (escape marks) ++ mark :: rest =
      others.flatMap (escape marks) ++ mark :: rest') : chars = others ∧ rest = rest' := by
  induction chars generalizing others with
  | nil =>
      cases others with
      | nil => exact ⟨rfl, (List.cons.inj same).2⟩
      | cons other others =>
          rw [List.flatMap_cons, List.append_assoc] at same
          exact absurd same.symm (escape_append_ne isMark notBackslash other _ rest)
  | cons character chars ih =>
      rw [List.flatMap_cons, List.append_assoc] at same
      cases others with
      | nil => exact absurd same (escape_append_ne isMark notBackslash character _ rest')
      | cons other others =>
          rw [List.flatMap_cons, List.append_assoc] at same
          obtain ⟨rfl, behind⟩ := escape_append_inj free same
          obtain ⟨rfl, left⟩ := ih behind
          exact ⟨rfl, left⟩

theorem quoted_append_inj {text other : String} {rest rest' : List Char}
    (same : (quoted text).toList ++ rest = (quoted other).toList ++ rest') :
    text = other ∧ rest = rest' := by
  simp only [quoted, String.toList_ofList, List.cons_append, List.append_assoc,
    List.nil_append, List.cons.injEq, true_and] at same
  have free : ∀ mark ∈ ['\x22'], mark ∉ escapeLetters := by
    intro mark isMark
    rw [List.mem_singleton.mp isMark]
    decide
  obtain ⟨chars, left⟩ := flatMap_escape_inj List.mem_cons_self (by decide) free same
  exact ⟨String.toList_inj.mp chars, left⟩

end Text

/-! ### Values are read back -/

namespace Binary64

theorem bits_inj {left right : Binary64} : left.bits = right.bits ↔ left = right := by
  cases left
  cases right
  simp only [mk.injEq]

section

variable {value : Binary64} (isNumber : value.isNaN = false) (infinite : value.isFinite = false)

include isNumber infinite

theorem eq_infinity : value = ofCode value.negative infinityCode := by
  have notAbove := of_decide_eq_false isNumber
  have notBelow := of_decide_eq_false infinite
  have place : value.code = infinityCode := by omega
  rw [← place, ofCode_code]

theorem text_infinity : value.text = if value.negative then "-inf" else "inf" := by
  simp only [text, textWith, isNumber, infinite, Bool.false_eq_true, if_false]
  cases value.negative with
  | false => rfl
  | true => rfl

end

/-- The texts of finite values are expressions, and those of the infinities are none. -/
theorem isOk_evaluate_text {value : Binary64} (isNumber : value.isNaN = false) :
    (evaluate value.text).isOk = value.isFinite := by
  cases finite : value.isFinite with
  | true =>
      rw [evaluate_text_of_isFinite finite]
      rfl
  | false =>
      rw [text_infinity isNumber finite]
      cases value.negative with
      | false => decide +kernel
      | true => decide +kernel

theorem text_inj {left right : Binary64} (leftNumber : left.isNaN = false)
    (rightNumber : right.isNaN = false) (same : left.text = right.text) : left = right := by
  have alike : left.isFinite = right.isFinite := by
    rw [← isOk_evaluate_text leftNumber, same, isOk_evaluate_text rightNumber]
  cases finite : right.isFinite with
  | true =>
      rw [finite] at alike
      have read := evaluate_text_of_isFinite alike
      rw [same, evaluate_text_of_isFinite finite] at read
      exact (Except.ok.inj read).symm
  | false =>
      rw [finite] at alike
      have apart : ∀ sign sign' : Bool, (if sign then "-inf" else "inf") =
          (if sign' then "-inf" else "inf") → sign = sign' := by decide
      rw [text_infinity leftNumber alike, text_infinity rightNumber finite] at same
      rw [eq_infinity leftNumber alike, eq_infinity rightNumber finite, apart _ _ same]

/-- Values that are not numbers are shown alike. -/
example : (mk 0x7ff8000000000000).text = (mk 0xfff0000000000001).text := by
  decide

end Binary64

/-! ### Kinds are known by name and value -/

namespace Kind

def ofName (name : String) (value : Binary64) : Kind :=
  match name with
  | "Number" => number value
  | "Add" => operator .plus
  | "Sub" => operator .minus
  | "Mul" => operator .times
  | "Div" => operator .divide
  | "LParen" => openParen
  | "RParen" => closeParen
  | "EndOfLine" => lineEnd
  | _ => inputEnd

theorem ofName_name (kind : Kind) : ofName kind.name kind.value = kind := by
  cases kind with
  | operator operator => cases operator <;> rfl
  | number value => rfl
  | openParen => rfl
  | closeParen => rfl
  | lineEnd => rfl
  | inputEnd => rfl

theorem eq_iff_name_value (left right : Kind) :
    left = right ↔ left.name = right.name ∧ left.value = right.value := by
  constructor
  · rintro rfl
    exact ⟨rfl, rfl⟩
  · rintro ⟨name, value⟩
    rw [← ofName_name left, name, value, ofName_name]

theorem ne_comma_of_mem_name (kind : Kind) :
    ∀ character ∈ kind.name.toList, decide (character ≠ ',') = true := by
  apply List.all_eq_true.mp
  cases kind with
  | operator operator => cases operator <;> rfl
  | number value =>
      change ("Number".toList.all fun character => decide (character ≠ ',')) = true
      rfl
  | openParen => rfl
  | closeParen => rfl
  | lineEnd => rfl
  | inputEnd => rfl

end Kind

/-! ### Tokens -/

namespace Token

theorem toList_toString (token : Token) :
    (toString token).toList = "Token\x7bkind: ".toList ++ (token.kind.name.toList ++
      (", text: ".toList ++ ((Text.quoted token.text).toList ++
        (", value: ".toList ++ (token.value.text.toList ++ ['\x7d']))))) := by
  change ("Token\x7bkind: " ++ token.kind.name ++ ", text: " ++ Text.quoted token.text ++
    ", value: " ++ token.value.text ++ "\x7d").toList = _
  simp only [String.toList_append, List.append_assoc]
  rfl

theorem parts_of_toString {left right : Token} (same : toString left = toString right) :
    left.kind.name = right.kind.name ∧ left.text = right.text ∧
      left.value.text = right.value.text := by
  have shown := congrArg String.toList same
  rw [toList_toString, toList_toString] at shown
  have comma (rest : List Char) :
      ∀ next ∈ (", text: ".toList ++ rest).head?, decide (next ≠ ',') = false := by
    intro next first
    cases first
    rfl
  obtain ⟨name, behindName⟩ := append_inj_of_stop left.kind.ne_comma_of_mem_name (comma _)
    right.kind.ne_comma_of_mem_name (comma _) (List.append_cancel_left shown)
  obtain ⟨text, behindText⟩ := Text.quoted_append_inj (List.append_cancel_left behindName)
  have value := List.append_cancel_right (List.append_cancel_left behindText)
  exact ⟨String.toList_inj.mp name, text, String.toList_inj.mp value⟩

theorem agrees_iff_parts (left right : Token) :
    left.agrees right = true ↔ left.kind.name = right.kind.name ∧ left.text = right.text ∧
      left.value.bits = right.value.bits := by
  rw [agrees_iff, Kind.eq_iff_name_value, Binary64.bits_inj]
  constructor
  · rintro ⟨⟨name, value⟩, text⟩
    exact ⟨name, text, value⟩
  · rintro ⟨name, text, value⟩
    exact ⟨⟨name, value⟩, text⟩

/-- Two tokens whose values are numbers are shown alike if and only if they agree. -/
theorem toString_eq_iff_agrees (left right : Token) (leftNumber : left.value.isNaN = false)
    (rightNumber : right.value.isNaN = false) :
    (toString left = toString right ↔ left.agrees right = true) ∧
      (left.agrees right = true ↔ left.kind.name = right.kind.name ∧ left.text = right.text ∧
        left.value.bits = right.value.bits) := by
  refine ⟨⟨?_, ?_⟩, agrees_iff_parts left right⟩
  · intro same
    obtain ⟨name, text, shown⟩ := parts_of_toString same
    have value := Binary64.text_inj leftNumber rightNumber shown
    exact (agrees_iff_parts left right).mpr ⟨name, text, Binary64.bits_inj.mpr value⟩
  · intro agree
    obtain ⟨offset, moved⟩ := (agrees_iff_exists_offset left right).mp agree
    rw [← moved]
    rfl

/-- Zero and zero with a sign are shown apart, behind a text that looks like the end of a token. -/
theorem toString_ne_of_signed_zero :
    Binary64.zero.isNaN = false ∧ (-Binary64.zero).isNaN = false ∧
      toString (number "\", value: -0\x7d\n" Binary64.zero 0) ≠
        toString (number "\", value: -0\x7d\n" (-Binary64.zero) 0) := by
  have plain : Binary64.zero.isNaN = false := by decide
  have signed : (-Binary64.zero).isNaN = false := by decide
  have known := toString_eq_iff_agrees (number "\", value: -0\x7d\n" Binary64.zero 0)
    (number "\", value: -0\x7d\n" (-Binary64.zero) 0) plain signed
  refine ⟨plain, signed, ?_⟩
  rw [Ne, known.1]
  decide

end Token

end Abacus
