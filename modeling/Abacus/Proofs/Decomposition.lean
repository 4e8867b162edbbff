/-
The decomposition of a line into tokens.

Every line has exactly one, and it is what the scanner answers.  The proof goes through
`Pieces`, which cuts a text from the left: a line can be cut in one way, the scanner cuts it
in that way, and the pieces that were cut are a decomposition.
-/

import Abacus.Proofs.Spelling
import Abacus.Proofs.TokenStream

namespace Abacus

/-! ### Decompositions -/

/-- Why no token can be taken from the front of a text: its first character begins
none, or the numeral that it begins with has no finite value. -/
inductive Refused (position : Nat) : List Char → Fault → Prop where
  | stray (character : Char) (rest : List Char) (notBlank : isBlank character = false)
      (noToken : ¬ StartsToken character) :
      Refused position (character :: rest) (.strayCharacter character position)
  | outOfRange (numeral : Numeral) (rest : List Char) (wellFormed : numeral.WellFormed)
      (longest : LongestBefore numeral.chars rest) (infinite : numeral.value? = none) :
      Refused position (numeral.chars ++ rest)
        (.outOfRange (String.ofList numeral.chars) position)

/-- Up to the byte `finish` the line is the spans of the tokens and blanks. -/
structure Covers (line : List Char) (tokens : List Token) (finish : Nat) : Prop where
  spelled : ∀ token ∈ tokens, token.Spelled
  stands : ∀ token ∈ tokens, ∃ front back, line = front ++ (token.span ++ back) ∧
    token.offset = encodedSize front ∧ token.EndsBefore back
  ordered : tokens.Pairwise fun left right => left.finish ≤ right.offset
  inside : ∀ token ∈ tokens, token.finish ≤ finish
  blank : ∀ front character back, line = front ++ character :: back →
    encodedSize front < finish →
    isBlank character = true ∨
      ∃ token ∈ tokens, token.offset ≤ encodedSize front ∧ encodedSize front < token.finish

def answerPosition : Except Fault Token → Nat
  | .ok token => token.offset
  | .error fault => fault.position

/-- What ends the tokens of a line: the end of the input, or a text without a token. -/
def EndsLine (line : List Char) : Except Fault Token → Prop
  | .ok token => token = .inputEnd (encodedSize line)
  | .error fault =>
      ∃ front back, line = front ++ back ∧ Refused (encodedSize front) back fault

structure Decomposition (line : List Char) (tokens : List Token) (last : Except Fault Token) :
    Prop where
  covers : Covers line tokens (answerPosition last)
  ends : EndsLine line last

/-- The same from left to right: a text that starts at the byte is cut into blanks and
tokens, up to what ends the tokens. -/
inductive Pieces : Nat → List Char → List Token → Except Fault Token → Prop where
  | ended (position : Nat) (blanks : List Char)
      (blank : ∀ character ∈ blanks, isBlank character = true) :
      Pieces position blanks [] (.ok (.inputEnd (position + encodedSize blanks)))
  | refused (position : Nat) (blanks rest : List Char) (fault : Fault)
      (blank : ∀ character ∈ blanks, isBlank character = true)
      (refuses : Refused (position + encodedSize blanks) rest fault) :
      Pieces position (blanks ++ rest) [] (.error fault)
  | token (position : Nat) (blanks rest : List Char) (token : Token) (tokens : List Token)
      (last : Except Fault Token)
      (blank : ∀ character ∈ blanks, isBlank character = true)
      (spelled : token.Spelled) (stands : token.offset = position + encodedSize blanks)
      (ends : token.EndsBefore rest) (more : Pieces token.finish rest tokens last) :
      Pieces position (blanks ++ (token.span ++ rest)) (token :: tokens) last

/-! ### First characters -/

private theorem notBlank_of_digit {character : Char} (digit : character.isDigit = true) :
    isBlank character = false := by
  rw [← Bool.not_eq_true]
  intro blank
  have member := of_decide_eq_true blank
  simp only [List.mem_cons, List.not_mem_nil, or_false] at member
  rcases member with rfl | rfl | rfl | rfl | rfl <;> cases digit

private theorem single_character {kind : Kind} {character : Char}
    (is : kind.character? = some character) :
    isBlank character = false ∧ character.isDigit = false := by
  cases kind with
  | operator operator => cases operator <;> cases is <;> exact ⟨rfl, rfl⟩
  | number value => cases is
  | openParen => cases is; exact ⟨rfl, rfl⟩
  | closeParen => cases is; exact ⟨rfl, rfl⟩
  | lineEnd => cases is; exact ⟨rfl, rfl⟩
  | inputEnd => cases is

private theorem Numeral.WellFormed.exists_cons {numeral : Numeral}
    (wellFormed : numeral.WellFormed) :
    ∃ first more, numeral.chars = first :: more ∧ first.isDigit = true := by
  obtain ⟨whole, fraction⟩ := numeral
  cases whole with
  | nil => exact absurd rfl wellFormed.some_digit
  | cons first others =>
      have digit := wellFormed.whole first List.mem_cons_self
      cases fraction with
      | none => exact ⟨first, others, rfl, digit⟩
      | some digits => exact ⟨first, others ++ '.' :: digits, rfl, digit⟩

private theorem Token.Spelled.notBlank {token : Token} (spelled : token.Spelled)
    (rest : List Char) : ∀ next ∈ (token.span ++ rest).head?, isBlank next = false := by
  intro next first
  cases spelled with
  | number numeral value offset wellFormed denotes =>
      obtain ⟨digit, more, starts, isDigit⟩ := wellFormed.exists_cons
      rw [Token.span_number, starts] at first
      cases first
      exact notBlank_of_digit isDigit
  | single kind character offset is =>
      rw [Token.span_single is] at first
      cases first
      exact (single_character is).1

private theorem Refused.notBlank {position : Nat} {rest : List Char} {fault : Fault}
    (refused : Refused position rest fault) : ∀ next ∈ rest.head?, isBlank next = false := by
  intro next first
  cases refused with
  | stray character rest notBlank noToken =>
      cases first
      exact notBlank
  | outOfRange numeral rest wellFormed longest infinite =>
      obtain ⟨digit, more, starts, isDigit⟩ := wellFormed.exists_cons
      rw [starts] at first
      cases first
      exact notBlank_of_digit isDigit

theorem Refused.position_eq {position : Nat} {rest : List Char} {fault : Fault}
    (refused : Refused position rest fault) : fault.position = position := by
  cases refused with
  | stray => rfl
  | outOfRange => rfl

/-! ### The scanner cuts the pieces -/

namespace Scanner

private theorem skipBlanks_of_blanks {position : Nat} {blanks rest : List Char}
    (blank : ∀ character ∈ blanks, isBlank character = true)
    (stop : ∀ next ∈ rest.head?, isBlank next = false) :
    (Scanner.mk (blanks ++ rest) position).skipBlanks =
      ⟨rest, position + encodedSize blanks⟩ := by
  simp only [skipBlanks, behind, takeWhile_append_of_stop blank stop,
    dropWhile_append_of_stop blank stop]

private theorem take_of_digit {position : Nat} {first : Char} {rest : List Char}
    (digit : first.isDigit = true) :
    (Scanner.mk (first :: rest) position).take =
      (Scanner.mk (first :: rest) position).takeNumeral
        (Numeral.read (first :: rest)).1 (Numeral.read (first :: rest)).2 := by
  simp only [take, if_pos digit]

private theorem take_of_not_digit {position : Nat} {first : Char} {rest : List Char}
    (other : first.isDigit = false) :
    (Scanner.mk (first :: rest) position).take =
      (Scanner.mk (first :: rest) position).takeSingle first rest := by
  simp only [take, other, Bool.false_eq_true, if_false]

private theorem take_numeral {position : Nat} {numeral : Numeral} {rest : List Char}
    (wellFormed : numeral.WellFormed) (longest : LongestBefore numeral.chars rest) :
    (Scanner.mk (numeral.chars ++ rest) position).take =
      (Scanner.mk (numeral.chars ++ rest) position).takeNumeral numeral rest := by
  obtain ⟨first, more, starts, digit⟩ := wellFormed.exists_cons
  have reads := Numeral.read_of_longest wellFormed longest
  rw [starts, List.cons_append] at reads ⊢
  rw [take_of_digit digit, reads]

private theorem take_spelled {token : Token} {rest : List Char} (spelled : token.Spelled)
    (ends : token.EndsBefore rest) :
    (Scanner.mk (token.span ++ rest) token.offset).take =
      .ok (token, ⟨rest, token.finish⟩) := by
  cases spelled with
  | number numeral value offset wellFormed denotes =>
      have longest := ends value rfl
      rw [Token.finish, Token.span_number] at *
      rw [take_numeral wellFormed longest]
      simp only [takeNumeral, denotes, behind]
      rfl
  | single kind character offset is =>
      rw [Token.finish, Token.span_single is, List.singleton_append,
        take_of_not_digit (single_character is).2]
      simp only [takeSingle, Token.ofChar?, (Kind.ofChar?_eq_some_iff character kind).mpr is,
        Option.map_some, behind]

private theorem take_refused {position : Nat} {rest : List Char} {fault : Fault}
    (refused : Refused position rest fault) :
    (Scanner.mk rest position).take = .error fault := by
  cases refused with
  | stray character rest notBlank noToken =>
      have notDigit : character.isDigit = false := by
        rw [← Bool.not_eq_true]
        exact fun digit => noToken (Or.inl digit)
      have noKind : Kind.ofChar? character = none := by
        cases found : Kind.ofChar? character with
        | none => rfl
        | some kind =>
            exact absurd (Or.inr ⟨kind, (Kind.ofChar?_eq_some_iff character kind).mp found⟩)
              noToken
      rw [take_of_not_digit notDigit]
      simp only [takeSingle, Token.ofChar?, noKind, Option.map_none]
  | outOfRange numeral rest wellFormed longest infinite =>
      rw [take_numeral wellFormed longest]
      simp only [takeNumeral, infinite]

theorem next_of_blanks {blanks : List Char} (position : Nat)
    (blank : ∀ character ∈ blanks, isBlank character = true) :
    (Scanner.mk blanks position).next =
      (.ok (.inputEnd (position + encodedSize blanks)), ⟨[], position + encodedSize blanks⟩) := by
  have skipped : (Scanner.mk (blanks ++ []) position).skipBlanks = _ :=
    skipBlanks_of_blanks blank (by simp)
  rw [List.append_nil] at skipped
  simp only [next, skipped, take]

theorem next_of_refused {position : Nat} {blanks rest : List Char} {fault : Fault}
    (blank : ∀ character ∈ blanks, isBlank character = true)
    (refuses : Refused (position + encodedSize blanks) rest fault) :
    (Scanner.mk (blanks ++ rest) position).next = (.error fault, ⟨blanks ++ rest, position⟩) := by
  simp only [next, skipBlanks_of_blanks blank refuses.notBlank, take_refused refuses]

theorem next_of_token {position : Nat} {blanks rest : List Char} {token : Token}
    (blank : ∀ character ∈ blanks, isBlank character = true) (spelled : token.Spelled)
    (stands : token.offset = position + encodedSize blanks) (ends : token.EndsBefore rest) :
    (Scanner.mk (blanks ++ (token.span ++ rest)) position).next =
      (.ok token, ⟨rest, token.finish⟩) := by
  simp only [next, skipBlanks_of_blanks blank (spelled.notBlank rest), ← stands,
    take_spelled spelled ends]

theorem answers_of_pieces {position : Nat} {chars : List Char} {tokens : List Token}
    {last : Except Fault Token} (pieces : Pieces position chars tokens last) :
    (Scanner.mk chars position).answers = tokens.map .ok ++ [last] := by
  induction pieces with
  | ended position blanks blank =>
      have answer := next_of_blanks position blank
      rw [answers_of_last _ (by rw [answer]; rfl), answer]
      rfl
  | refused position blanks rest fault blank refuses =>
      have answer := next_of_refused blank refuses
      rw [answers_of_last _ (by rw [answer]; rfl), answer]
      rfl
  | token position blanks rest token tokens last blank spelled stands ends _ ih =>
      have answer := next_of_token blank spelled stands ends
      have goesOn : isLastAnswer (Scanner.mk (blanks ++ (token.span ++ rest)) position).next.1 =
          false := by
        rw [answer]
        exact decide_eq_false spelled.ne_inputEnd
      rw [answers_of_not_last _ goesOn, answer, ih]
      rfl

end Scanner

/-! ### Every text can be cut -/

private def BeginsWithToken (position : Nat) (chars : List Char) : Prop :=
  ∃ (token : Token) (rest : List Char), chars = token.span ++ rest ∧ token.Spelled ∧
    token.offset = position ∧ token.EndsBefore rest

private theorem numeral_or_refused (position : Nat) {first : Char} (rest : List Char)
    (digit : first.isDigit = true) :
    BeginsWithToken position (first :: rest) ∨ ∃ fault, Refused position (first :: rest) fault := by
  have wellFormed := Numeral.wellFormed_read digit rest
  have longest := Numeral.longest_read (first :: rest)
  have parts := Numeral.read_chars_append (first :: rest)
  generalize Numeral.read (first :: rest) = reading at wellFormed longest parts
  obtain ⟨numeral, behind⟩ := reading
  rw [← parts]
  cases denotes : numeral.value? with
  | none => exact Or.inr ⟨_, Refused.outOfRange numeral behind wellFormed longest denotes⟩
  | some value =>
      have span := Token.span_number numeral value position
      refine Or.inl ⟨_, behind, by rw [span],
        Token.Spelled.number numeral value position wellFormed denotes, rfl, ?_⟩
      intro _ _
      rw [span]
      exact longest

private theorem single_or_refused (position : Nat) {first : Char} (rest : List Char)
    (notBlank : isBlank first = false) (notDigit : ¬ first.isDigit = true) :
    BeginsWithToken position (first :: rest) ∨ ∃ fault, Refused position (first :: rest) fault := by
  by_cases single : ∃ kind : Kind, kind.character? = some first
  · obtain ⟨kind, is⟩ := single
    refine Or.inl ⟨_, rest, by rw [Token.span_single is]; rfl,
      Token.Spelled.single kind first position is, rfl, ?_⟩
    intro value isNumber
    cases isNumber
    cases is
  · exact Or.inr ⟨_, Refused.stray first rest notBlank (not_or.mpr ⟨notDigit, single⟩)⟩

theorem exists_pieces (position : Nat) (chars : List Char) :
    ∃ tokens last, Pieces position chars tokens last := by
  have split : chars.takeWhile isBlank ++ chars.dropWhile isBlank = chars :=
    List.takeWhile_append_dropWhile
  have blank : ∀ character ∈ chars.takeWhile isBlank, isBlank character = true :=
    fun _ member => of_mem_takeWhile member
  generalize chars.takeWhile isBlank = blanks at split blank
  cases behind : chars.dropWhile isBlank with
  | nil =>
      rw [behind, List.append_nil] at split
      subst split
      exact ⟨[], _, Pieces.ended position blanks blank⟩
  | cons first rest =>
      have notBlank : isBlank first = false := of_mem_head?_dropWhile (by rw [behind]; rfl)
      have begins : BeginsWithToken (position + encodedSize blanks) (first :: rest) ∨
          ∃ fault, Refused (position + encodedSize blanks) (first :: rest) fault := by
        by_cases digit : first.isDigit = true
        · exact numeral_or_refused _ rest digit
        · exact single_or_refused _ rest notBlank digit
      rw [behind] at split
      rcases begins with ⟨token, others, parts, spelled, stands, ends⟩ | ⟨fault, refused⟩
      · rw [parts] at split
        have shorter : others.length < chars.length := by
          have notEmpty := List.length_pos_iff.mpr spelled.span_ne_nil
          rw [← split, List.length_append, List.length_append]
          omega
        obtain ⟨tokens, last, more⟩ := exists_pieces token.finish others
        rw [← split]
        exact ⟨_, last,
          Pieces.token position blanks others token tokens last blank spelled stands ends more⟩
      · rw [← split]
        exact ⟨[], _, Pieces.refused position blanks _ fault blank refused⟩
termination_by chars.length

theorem pieces_iff_answers_eq {position : Nat} {chars : List Char} {tokens : List Token}
    {last : Except Fault Token} :
    Pieces position chars tokens last ↔
      (Scanner.mk chars position).answers = tokens.map .ok ++ [last] := by
  constructor
  · exact Scanner.answers_of_pieces
  · intro answers
    obtain ⟨tokens', last', pieces⟩ := exists_pieces position chars
    rw [Scanner.answers_of_pieces pieces] at answers
    obtain ⟨rfl, rfl⟩ := tokens_last_inj answers
    exact pieces

/-! ### Pieces are a decomposition -/

theorem Covers.blanks {line taken blanks rest : List Char} {tokens : List Token}
    (covers : Covers line tokens (encodedSize taken)) (split : line = taken ++ (blanks ++ rest))
    (blank : ∀ character ∈ blanks, isBlank character = true) :
    Covers line tokens (encodedSize (taken ++ blanks)) where
  spelled := covers.spelled
  stands := covers.stands
  ordered := covers.ordered
  inside token member := by
    have before := covers.inside token member
    rw [encodedSize_append]
    omega
  blank front character back parts before := by
    by_cases inTaken : encodedSize front < encodedSize taken
    · exact covers.blank front character back parts inTaken
    · left
      obtain ⟨between, longer, behind⟩ :=
        exists_append_of_encodedSize_le (split.symm.trans parts) (Nat.le_of_not_lt inTaken)
      -- the character is one of the blanks, because it stands in front of their end
      rcases List.append_eq_append_iff.mp behind with ⟨more, same, _⟩ | ⟨more, same, starts⟩
      · rw [longer, same, encodedSize_append, encodedSize_append, encodedSize_append] at before
        omega
      · cases more with
        | nil =>
            rw [longer, same, List.append_nil] at before
            omega
        | cons first others =>
            cases starts
            apply blank
            rw [same]
            exact List.mem_append_right between List.mem_cons_self

theorem Covers.token {line taken rest : List Char} {tokens : List Token} {token : Token}
    (covers : Covers line tokens (encodedSize taken))
    (split : line = taken ++ (token.span ++ rest)) (spelled : token.Spelled)
    (stands : token.offset = encodedSize taken) (ends : token.EndsBefore rest) :
    Covers line (tokens ++ [token]) token.finish := by
  have longer : token.offset ≤ token.finish := Nat.le_add_right _ _
  constructor
  · intro other member
    rcases List.mem_append.mp member with before | last
    · exact covers.spelled other before
    · rw [List.mem_singleton.mp last]
      exact spelled
  · intro other member
    rcases List.mem_append.mp member with before | last
    · exact covers.stands other before
    · rw [List.mem_singleton.mp last]
      exact ⟨taken, rest, split, stands, ends⟩
  · rw [List.pairwise_append]
    refine ⟨covers.ordered, List.pairwise_singleton _ _, ?_⟩
    intro left before right last
    rw [List.mem_singleton.mp last, stands]
    exact covers.inside left before
  · intro other member
    rcases List.mem_append.mp member with before | last
    · have inside := covers.inside other before
      omega
    · rw [List.mem_singleton.mp last]
  · intro front character back parts before
    by_cases inTaken : encodedSize front < encodedSize taken
    · rcases covers.blank front character back parts inTaken with blank | ⟨other, member, around⟩
      · exact Or.inl blank
      · exact Or.inr ⟨other, List.mem_append_left [token] member, around⟩
    · refine Or.inr ⟨token, List.mem_append_right tokens List.mem_cons_self, ?_, before⟩
      omega

/-- What has been cut so far is kept, and the pieces of the rest complete it. -/
theorem Pieces.decomposition {position : Nat} {rest : List Char} {tokens : List Token}
    {last : Except Fault Token} (pieces : Pieces position rest tokens last)
    {taken : List Char} {before : List Token} (starts : position = encodedSize taken)
    (covers : Covers (taken ++ rest) before position) :
    Decomposition (taken ++ rest) (before ++ tokens) last := by
  induction pieces generalizing taken before with
  | ended position blanks blank =>
      subst starts
      rw [List.append_nil, ← encodedSize_append]
      have split : taken ++ blanks = taken ++ (blanks ++ []) := by rw [List.append_nil]
      exact ⟨covers.blanks split blank, rfl⟩
  | refused position blanks rest fault blank refuses =>
      subst starts
      have reached := covers.blanks rfl blank
      rw [← encodedSize_append] at refuses
      rw [List.append_nil]
      refine ⟨?_, taken ++ blanks, rest, (List.append_assoc _ _ _).symm, refuses⟩
      rw [answerPosition, refuses.position_eq]
      exact reached
  | token position blanks rest token tokens last blank spelled stands ends _ ih =>
      subst starts
      rw [← encodedSize_append] at stands
      have assoc : taken ++ (blanks ++ (token.span ++ rest)) =
          taken ++ blanks ++ (token.span ++ rest) := (List.append_assoc _ _ _).symm
      have reached := (covers.blanks rfl blank).token assoc spelled stands ends
      have finish : token.finish = encodedSize (taken ++ blanks ++ token.span) := by
        rw [Token.finish, stands, ← encodedSize_append]
      rw [assoc, ← List.append_assoc (taken ++ blanks)] at reached ⊢
      have whole := ih finish reached
      rw [List.append_assoc before] at whole
      exact whole

/-! ### A decomposition is cut from the left -/

theorem Covers.blank_between {line taken between rest : List Char} {tokens : List Token}
    {finish : Nat} (covers : Covers line tokens finish)
    (split : line = taken ++ (between ++ rest)) (reaches : encodedSize (taken ++ between) ≤ finish)
    (outside : ∀ token ∈ tokens,
      token.finish ≤ encodedSize taken ∨ encodedSize (taken ++ between) ≤ token.offset) :
    ∀ character ∈ between, isBlank character = true := by
  intro character member
  obtain ⟨before, behind, rfl⟩ := List.append_of_mem member
  have parts : line = (taken ++ before) ++ character :: (behind ++ rest) := by
    rw [split, List.append_assoc, List.append_assoc, List.cons_append]
  have bytes := character.utf8Size_pos
  simp only [encodedSize_append, encodedSize_cons] at reaches outside
  have early : encodedSize (taken ++ before) < finish := by
    rw [encodedSize_append]
    omega
  rcases covers.blank _ character _ parts early with blank | ⟨token, isToken, starts, ends⟩
  · exact blank
  · rw [encodedSize_append] at starts ends
    rcases outside token isToken with gone | ahead
    · omega
    · omega

private theorem Decomposition.pieces_nil {line taken rest : List Char} {before : List Token}
    {last : Except Fault Token} (decomposed : Decomposition line before last)
    (split : line = taken ++ rest) (gone : ∀ token ∈ before, token.finish ≤ encodedSize taken)
    (reaches : encodedSize taken ≤ answerPosition last) :
    Pieces (encodedSize taken) rest [] last := by
  have outside (between : List Char) : ∀ token ∈ before,
      token.finish ≤ encodedSize taken ∨ encodedSize (taken ++ between) ≤ token.offset :=
    fun token member => Or.inl (gone token member)
  cases last with
  | ok token =>
      have isEnd : token = .inputEnd (encodedSize line) := decomposed.ends
      have blank : ∀ character ∈ rest, isBlank character = true := by
        apply decomposed.covers.blank_between (by rw [List.append_nil]; exact split) _
          (outside rest)
        rw [← split, isEnd]
        exact Nat.le_refl _
      rw [isEnd, split, encodedSize_append]
      exact Pieces.ended (encodedSize taken) rest blank
  | error fault =>
      obtain ⟨front, back, parts, refused⟩ := decomposed.ends
      have place : fault.position = encodedSize front := refused.position_eq
      rw [answerPosition, place] at reaches
      obtain ⟨blanks, rfl, rfl⟩ :=
        exists_append_of_encodedSize_le (split.symm.trans parts) reaches
      have blank : ∀ character ∈ blanks, isBlank character = true := by
        apply decomposed.covers.blank_between split _ (outside blanks)
        rw [answerPosition, place]
      rw [encodedSize_append] at refused
      exact Pieces.refused (encodedSize taken) blanks back fault blank refused

private theorem Covers.exists_blanks {line taken rest : List Char} {before after : List Token}
    {token : Token} {finish : Nat} (covers : Covers line (before ++ token :: after) finish)
    (split : line = taken ++ rest) (gone : ∀ other ∈ before, other.finish ≤ encodedSize taken)
    (starts : encodedSize taken ≤ token.offset) :
    ∃ blanks back, rest = blanks ++ (token.span ++ back) ∧
      (∀ character ∈ blanks, isBlank character = true) ∧
      token.offset = encodedSize (taken ++ blanks) ∧ token.EndsBefore back := by
  have member : token ∈ before ++ token :: after :=
    List.mem_append_right before List.mem_cons_self
  obtain ⟨front, back, parts, stands, ends⟩ := covers.stands token member
  rw [stands] at starts
  obtain ⟨blanks, rfl, rfl⟩ := exists_append_of_encodedSize_le (split.symm.trans parts) starts
  refine ⟨blanks, back, rfl, ?_, stands, ends⟩
  have longer : token.offset ≤ token.finish := Nat.le_add_right _ _
  have inside := covers.inside token member
  apply covers.blank_between split (by omega)
  intro other isOther
  rcases List.mem_append.mp isOther with isBefore | isAhead
  · exact Or.inl (gone other isBefore)
  · rcases List.mem_cons.mp isAhead with rfl | isLater
    · exact Or.inr (Nat.le_of_eq stands.symm)
    · have order := List.rel_of_pairwise_cons (List.pairwise_append.mp covers.ordered).2.1 isLater
      omega

/-- Behind the tokens that have been cut, the rest of the decomposition is the pieces
of the rest of the line. -/
theorem Decomposition.pieces {line taken rest : List Char} {before tokens : List Token}
    {last : Except Fault Token} (decomposed : Decomposition line (before ++ tokens) last)
    (split : line = taken ++ rest) (gone : ∀ token ∈ before, token.finish ≤ encodedSize taken)
    (ahead : ∀ token ∈ tokens, encodedSize taken ≤ token.offset)
    (reaches : encodedSize taken ≤ answerPosition last) :
    Pieces (encodedSize taken) rest tokens last := by
  induction tokens generalizing taken rest before with
  | nil =>
      rw [List.append_nil] at decomposed
      exact decomposed.pieces_nil split gone reaches
  | cons token tokens ih =>
      have covers := decomposed.covers
      have member : token ∈ before ++ token :: tokens :=
        List.mem_append_right before List.mem_cons_self
      obtain ⟨blanks, back, rfl, blank, stands, ends⟩ :=
        covers.exists_blanks split gone (ahead token List.mem_cons_self)
      have finish : token.finish = encodedSize (taken ++ blanks ++ token.span) := by
        rw [Token.finish, stands, ← encodedSize_append]
      have parts : line = taken ++ blanks ++ token.span ++ back := by
        rw [split, List.append_assoc, List.append_assoc]
      have goneToken : ∀ other ∈ before ++ [token], other.finish ≤ token.finish := by
        intro other isOther
        rcases List.mem_append.mp isOther with isBefore | isToken
        · have order := gone other isBefore
          rw [finish, encodedSize_append, encodedSize_append]
          omega
        · rw [List.mem_singleton.mp isToken]
      have later : ∀ other ∈ tokens, token.finish ≤ other.offset :=
        fun _ isLater =>
          List.rel_of_pairwise_cons (List.pairwise_append.mp covers.ordered).2.1 isLater
      have inside := covers.inside token member
      rw [List.append_cons] at decomposed
      rw [finish] at goneToken later inside
      have more := ih decomposed parts goneToken later inside
      rw [← finish] at more
      rw [encodedSize_append] at stands
      exact Pieces.token (encodedSize taken) blanks back token tokens last blank
        (covers.spelled token member) stands ends more

theorem decomposition_iff_pieces (line : List Char) (tokens : List Token)
    (last : Except Fault Token) :
    Decomposition line tokens last ↔ Pieces 0 line tokens last := by
  constructor
  · intro decomposed
    have whole : Decomposition line ([] ++ tokens) last := decomposed
    have split : line = [] ++ line := rfl
    exact whole.pieces split (List.forall_mem_nil _) (fun _ _ => Nat.zero_le _) (Nat.zero_le _)
  · intro pieces
    have nothing : Covers ([] ++ line) [] 0 :=
      { spelled := List.forall_mem_nil _
        stands := List.forall_mem_nil _
        ordered := List.Pairwise.nil
        inside := List.forall_mem_nil _
        blank := fun _ _ _ _ before => absurd before (Nat.not_lt_zero _) }
    exact pieces.decomposition rfl nothing

/-- A line has one decomposition, and the scanner answers with its tokens and then with
what ends them; where that is the end of the input, all bytes of the line are gone. -/
theorem Scanner.exists_unique_decomposition (line : String) :
    ∃ (tokens : List Token) (last : Except Fault Token),
      (Scanner.ofLine line).answers = tokens.map .ok ++ [last] ∧
      (∀ token, last = .ok token → token = .inputEnd line.utf8ByteSize) ∧
      ∀ (others : List Token) (ending : Except Fault Token),
        Decomposition line.toList others ending ↔ others = tokens ∧ ending = last := by
  obtain ⟨tokens, last, pieces⟩ := exists_pieces 0 line.toList
  have answers := Scanner.answers_of_pieces pieces
  refine ⟨tokens, last, answers, ?_, ?_⟩
  · rintro token rfl
    have isEnd : token = .inputEnd (encodedSize line.toList) :=
      ((decomposition_iff_pieces _ _ _).mpr pieces).ends
    rw [isEnd, encodedSize_toList]
  · intro others ending
    rw [decomposition_iff_pieces, pieces_iff_answers_eq, answers]
    constructor
    · intro same
      obtain ⟨front, final⟩ := List.append_inj' same rfl
      exact ⟨((List.map_inj_right (fun _ _ => Except.ok.inj)).mp front).symm,
        (List.cons.inj final).1.symm⟩
    · rintro ⟨rfl, rfl⟩
      rfl

end Abacus
