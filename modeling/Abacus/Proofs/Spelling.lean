/-
How tokens are spelled.

A token covers its text in the line, and only the line feed, which has no text, covers a
character of its own.  What is read of a numeral could not go on with the character behind
it, and a numeral that could not is read as it stands.
-/

import Abacus.Scanner

namespace Abacus

/-! ### Bytes of characters -/

theorem encodedSize_append (front back : List Char) :
    encodedSize (front ++ back) = encodedSize front + encodedSize back := by
  induction front with
  | nil => exact (Nat.zero_add _).symm
  | cons character front ih =>
      change character.utf8Size + encodedSize (front ++ back) =
        character.utf8Size + encodedSize front + encodedSize back
      rw [ih, Nat.add_assoc]

theorem encodedSize_cons (character : Char) (rest : List Char) :
    encodedSize (character :: rest) = character.utf8Size + encodedSize rest :=
  rfl

theorem encodedSize_pos {chars : List Char} (notEmpty : chars ≠ []) : 0 < encodedSize chars := by
  cases chars with
  | nil => exact absurd rfl notEmpty
  | cons character rest =>
      have bytes := character.utf8Size_pos
      rw [encodedSize_cons]
      omega

theorem encodedSize_toList (line : String) : encodedSize line.toList = line.utf8ByteSize := by
  have sizes (chars : List Char) : (String.ofList chars).utf8ByteSize = encodedSize chars := by
    induction chars with
    | nil => rfl
    | cons character rest ih =>
        rw [String.ofList_cons, String.utf8ByteSize_append, ih]
        exact congrArg (· + encodedSize rest) (String.utf8ByteSize_singleton)
  rw [← sizes, String.ofList_toList]

/-- Of two beginnings of a text, the one with fewer bytes begins the other. -/
theorem exists_append_of_encodedSize_le {front back front' back' : List Char}
    (same : front ++ back = front' ++ back') (less : encodedSize front ≤ encodedSize front') :
    ∃ between, front' = front ++ between ∧ back = between ++ back' := by
  rcases List.append_eq_append_iff.mp same with ⟨between, longer, split⟩ | ⟨between, longer, split⟩
  · exact ⟨between, longer, split⟩
  · have nothing : between = [] := by
      apply Classical.byContradiction
      intro notEmpty
      have bytes := encodedSize_pos notEmpty
      rw [longer, encodedSize_append] at less
      omega
    subst nothing
    rw [List.append_nil] at longer
    exact ⟨[], by rw [longer, List.append_nil], split.symm⟩

/-! ### Where a class of characters ends -/

section

variable {accepts : Char → Bool} {front back : List Char}

theorem takeWhile_append_of_stop (inside : ∀ character ∈ front, accepts character = true)
    (stop : ∀ next ∈ back.head?, accepts next = false) :
    (front ++ back).takeWhile accepts = front := by
  rw [List.takeWhile_append_of_pos inside]
  cases back with
  | nil => exact List.append_nil front
  | cons next rest =>
      rw [List.takeWhile_cons_of_neg (by rw [stop next rfl]; exact Bool.false_ne_true),
        List.append_nil]

theorem dropWhile_append_of_stop (inside : ∀ character ∈ front, accepts character = true)
    (stop : ∀ next ∈ back.head?, accepts next = false) :
    (front ++ back).dropWhile accepts = back := by
  rw [List.dropWhile_append_of_pos inside]
  cases back with
  | nil => rfl
  | cons next rest =>
      exact List.dropWhile_cons_of_neg (by rw [stop next rfl]; exact Bool.false_ne_true)

/-- Where both texts go on with a character outside of the class, they are split at the same
place. -/
theorem append_inj_of_stop {front' back' : List Char}
    (inside : ∀ character ∈ front, accepts character = true)
    (stop : ∀ next ∈ back.head?, accepts next = false)
    (inside' : ∀ character ∈ front', accepts character = true)
    (stop' : ∀ next ∈ back'.head?, accepts next = false)
    (same : front ++ back = front' ++ back') : front = front' ∧ back = back' := by
  have taken := takeWhile_append_of_stop inside stop
  have left := dropWhile_append_of_stop inside stop
  rw [same, takeWhile_append_of_stop inside' stop'] at taken
  rw [same, dropWhile_append_of_stop inside' stop'] at left
  exact ⟨taken.symm, left.symm⟩

theorem of_mem_takeWhile {character : Char} (member : character ∈ front.takeWhile accepts) :
    accepts character = true :=
  List.all_eq_true.mp List.all_takeWhile character member

theorem of_mem_head?_dropWhile {next : Char} (first : next ∈ (front.dropWhile accepts).head?) :
    accepts next = false := by
  have stop := List.head?_dropWhile_not accepts front
  rw [Option.mem_def.mp first] at stop
  exact stop

end

/-! ### Numerals -/

structure Numeral.WellFormed (numeral : Numeral) : Prop where
  some_digit : numeral.whole ≠ []
  whole : ∀ digit ∈ numeral.whole, digit.isDigit = true
  fraction : ∀ digits ∈ numeral.fraction, ∀ digit ∈ digits, digit.isDigit = true

def IsNumeral (text : List Char) : Prop :=
  ∃ numeral : Numeral, numeral.WellFormed ∧ numeral.chars = text

theorem IsNumeral.digit_or_point {text : List Char} (isNumeral : IsNumeral text) :
    ∀ character ∈ text, character.isDigit = true ∨ character = '.' := by
  obtain ⟨⟨whole, fraction⟩, wellFormed, rfl⟩ := isNumeral
  intro character member
  cases fraction with
  | none => exact Or.inl (wellFormed.whole character member)
  | some digits =>
      rcases List.mem_append.mp member with before | after
      · exact Or.inl (wellFormed.whole character before)
      · rcases List.mem_cons.mp after with rfl | behind
        · exact Or.inr rfl
        · exact Or.inl (wellFormed.fraction digits rfl character behind)

/-- The text goes on as a numeral with none of the characters that follow it. -/
def LongestBefore (text rest : List Char) : Prop :=
  ∀ next ∈ rest.head?, ¬ IsNumeral (text ++ [next])

namespace Numeral

theorem WellFormed.chars_ne_nil {numeral : Numeral} (wellFormed : numeral.WellFormed) :
    numeral.chars ≠ [] := by
  obtain ⟨whole, fraction⟩ := numeral
  cases fraction with
  | none => exact wellFormed.some_digit
  | some digits => simp [chars]

theorem WellFormed.isNumeral_digit {numeral : Numeral} (wellFormed : numeral.WellFormed)
    {next : Char} (digit : next.isDigit = true) : IsNumeral (numeral.chars ++ [next]) := by
  obtain ⟨whole, fraction⟩ := numeral
  have more {digits : List Char} (all : ∀ digit ∈ digits, digit.isDigit = true) :
      ∀ digit ∈ digits ++ [next], digit.isDigit = true := by
    intro character member
    rcases List.mem_append.mp member with before | last
    · exact all character before
    · rw [List.mem_singleton.mp last]
      exact digit
  cases fraction with
  | none =>
      refine ⟨⟨whole ++ [next], none⟩, ⟨by simp, more wellFormed.whole, ?_⟩, rfl⟩
      intro digits absent
      cases absent
  | some digits =>
      refine ⟨⟨whole, some (digits ++ [next])⟩,
        ⟨wellFormed.some_digit, wellFormed.whole, ?_⟩, by simp [chars]⟩
      intro others same
      cases same
      exact more (wellFormed.fraction digits rfl)

theorem WellFormed.isNumeral_point {whole : List Char}
    (wellFormed : (Numeral.mk whole none).WellFormed) : IsNumeral (whole ++ ['.']) := by
  refine ⟨⟨whole, some []⟩, ⟨wellFormed.some_digit, wellFormed.whole, ?_⟩, rfl⟩
  intro digits same digit member
  cases same
  cases member

theorem read_of_point {whole : List Char} (digits : ∀ digit ∈ whole, digit.isDigit = true)
    (tail : List Char) :
    read (whole ++ '.' :: tail) =
      (⟨whole, some (tail.takeWhile Char.isDigit)⟩, tail.dropWhile Char.isDigit) := by
  have stop : ∀ next ∈ ('.' :: tail).head?, next.isDigit = false := by
    intro next first
    cases first
    rfl
  unfold read
  rw [takeWhile_append_of_stop digits stop, dropWhile_append_of_stop digits stop]
  rfl

theorem read_of_no_point {whole rest : List Char}
    (digits : ∀ digit ∈ whole, digit.isDigit = true)
    (stop : ∀ next ∈ rest.head?, next.isDigit = false) (noPoint : '.' ∉ rest.head?) :
    read (whole ++ rest) = (⟨whole, none⟩, rest) := by
  unfold read
  rw [takeWhile_append_of_stop digits stop, dropWhile_append_of_stop digits stop]
  split
  · exact absurd rfl noPoint
  · rfl

theorem read_of_longest {numeral : Numeral} {rest : List Char}
    (wellFormed : numeral.WellFormed) (longest : LongestBefore numeral.chars rest) :
    read (numeral.chars ++ rest) = (numeral, rest) := by
  have stop : ∀ next ∈ rest.head?, next.isDigit = false := by
    intro next first
    rw [← Bool.not_eq_true]
    intro digit
    exact longest next first (wellFormed.isNumeral_digit digit)
  obtain ⟨whole, fraction⟩ := numeral
  cases fraction with
  | none =>
      apply read_of_no_point wellFormed.whole stop
      intro point
      exact longest '.' point wellFormed.isNumeral_point
  | some digits =>
      have all := wellFormed.fraction digits rfl
      change read ((whole ++ '.' :: digits) ++ rest) = _
      rw [List.append_assoc, List.cons_append, read_of_point wellFormed.whole,
        takeWhile_append_of_stop all stop, dropWhile_append_of_stop all stop]

theorem WellFormed.length_le_read {numeral : Numeral} (wellFormed : numeral.WellFormed)
    (rest : List Char) :
    numeral.chars.length ≤ (read (numeral.chars ++ rest)).1.chars.length := by
  obtain ⟨whole, fraction⟩ := numeral
  cases fraction with
  | none =>
      change whole.length ≤ (read (whole ++ rest)).1.chars.length
      unfold read
      rw [List.takeWhile_append_of_pos wellFormed.whole]
      split
      · simp only [chars, List.length_append]
        omega
      · simp only [chars, List.length_append]
        omega
  | some digits =>
      change (whole ++ '.' :: digits).length ≤
        (read ((whole ++ '.' :: digits) ++ rest)).1.chars.length
      rw [List.append_assoc, List.cons_append, read_of_point wellFormed.whole,
        List.takeWhile_append_of_pos (wellFormed.fraction digits rfl)]
      simp only [chars, List.length_append, List.length_cons]
      omega

theorem longest_read (source : List Char) :
    LongestBefore (read source).1.chars (read source).2 := by
  intro next first ⟨longer, wellFormed, goesOn⟩
  obtain ⟨rest, split⟩ := List.head?_eq_some_iff.mp first
  have whole := read_chars_append source
  rw [split, ← List.singleton_append, ← List.append_assoc, ← goesOn] at whole
  have bound := wellFormed.length_le_read rest
  rw [whole, goesOn, List.length_append, List.length_singleton] at bound
  omega

theorem wellFormed_read {first : Char} (digit : first.isDigit = true) (rest : List Char) :
    (read (first :: rest)).1.WellFormed := by
  have whole : (first :: rest).takeWhile Char.isDigit = first :: rest.takeWhile Char.isDigit :=
    List.takeWhile_cons_of_pos digit
  unfold read
  split
  · refine ⟨?_, fun _ member => of_mem_takeWhile member, ?_⟩
    · simp only [whole]
      exact List.cons_ne_nil _ _
    · intro digits same
      cases same
      exact fun _ member => of_mem_takeWhile member
  · refine ⟨?_, fun _ member => of_mem_takeWhile member, ?_⟩
    · simp only [whole]
      exact List.cons_ne_nil _ _
    · intro digits absent
      cases absent

end Numeral

/-! ### Tokens -/

namespace Kind

def character? : Kind → Option Char
  | operator .plus => some '+'
  | operator .minus => some '-'
  | operator .times => some '*'
  | operator .divide => some '/'
  | openParen => some '('
  | closeParen => some ')'
  | lineEnd => some '\n'
  | number _ => none
  | inputEnd => none

theorem ofChar?_eq_some_iff (character : Char) (kind : Kind) :
    ofChar? character = some kind ↔ kind.character? = some character := by
  constructor
  · intro found
    unfold ofChar? at found
    split at found <;> cases found <;> rfl
  · intro is
    cases kind with
    | operator operator => cases operator <;> cases is <;> rfl
    | number value => cases is
    | openParen => cases is; rfl
    | closeParen => cases is; rfl
    | lineEnd => cases is; rfl
    | inputEnd => cases is

end Kind

def StartsToken (character : Char) : Prop :=
  character.isDigit = true ∨ ∃ kind : Kind, kind.character? = some character

namespace Token

/-- A number is spelled as a numeral with its value, and any other token as the
character that it is; the line feed has no text. -/
inductive Spelled : Token → Prop where
  | number (numeral : Numeral) (value : Binary64) (offset : Nat)
      (wellFormed : numeral.WellFormed) (denotes : numeral.value? = some value) :
      Spelled (Token.number (String.ofList numeral.chars) value offset)
  | single (kind : Kind) (character : Char) (offset : Nat)
      (is : kind.character? = some character) :
      Spelled ⟨kind, if kind = .lineEnd then "" else character.toString, offset⟩

def span (token : Token) : List Char :=
  if token.kind = .lineEnd then ['\n'] else token.text.toList

/-- The byte behind the token. -/
def finish (token : Token) : Nat :=
  token.offset + encodedSize token.span

def EndsBefore (token : Token) (rest : List Char) : Prop :=
  ∀ value, token.kind = .number value → LongestBefore token.span rest

theorem span_number (numeral : Numeral) (value : Binary64) (offset : Nat) :
    (Token.number (String.ofList numeral.chars) value offset).span = numeral.chars :=
  String.toList_ofList

theorem span_single {kind : Kind} {character : Char} (is : kind.character? = some character)
    (offset : Nat) :
    (Token.mk kind (if kind = .lineEnd then "" else character.toString) offset).span =
      [character] := by
  unfold span
  by_cases feed : kind = .lineEnd
  · subst feed
    cases is
    rfl
  · simp only [if_neg feed]
    exact String.toList_singleton character

theorem Spelled.span_ne_nil {token : Token} (spelled : token.Spelled) : token.span ≠ [] := by
  cases spelled with
  | number numeral value offset wellFormed denotes =>
      rw [span_number]
      exact wellFormed.chars_ne_nil
  | single kind character offset is =>
      rw [span_single is]
      exact List.cons_ne_nil _ _

theorem Spelled.ne_inputEnd {token : Token} (spelled : token.Spelled) :
    token.kind ≠ .inputEnd := by
  cases spelled with
  | number numeral value offset wellFormed denotes => exact Kind.noConfusion
  | single kind character offset is =>
      intro ended
      cases ended
      cases is

end Token
end Abacus
