/-
The token that was put back cannot be noticed.

A rescanner keeps no token.  It puts one back by moving its cursor to where the token starts,
and it gives the same responses as the evaluator, whose pending token is the one that the
line has at its byte.
-/

import Abacus.Proofs.Serving
import Abacus.Proofs.Spelling

namespace Abacus

/-! ### Scanning from a byte -/

def dropBytes : List Char → Nat → List Char
  | chars, 0 => chars
  | [], _ => []
  | character :: rest, size => dropBytes rest (size - character.utf8Size)

theorem dropBytes_append (front back : List Char) :
    dropBytes (front ++ back) (encodedSize front) = back := by
  induction front with
  | nil => cases back <;> rfl
  | cons character front ih =>
      have bytes := character.utf8Size_pos
      obtain ⟨size, isSize⟩ := Nat.exists_eq_succ_of_ne_zero
        (show encodedSize (character :: front) ≠ 0 by rw [encodedSize_cons]; omega)
      rw [isSize]
      change dropBytes (front ++ back) (size + 1 - character.utf8Size) = back
      have left : size + 1 - character.utf8Size = encodedSize front := by
        rw [encodedSize_cons] at isSize
        omega
      rw [left, ih]

namespace Scanner

def ofCursor (line : String) (cursor : Nat) : Scanner :=
  ⟨dropBytes line.toList cursor, cursor⟩

/-- The scanner stands in the line, at a byte where a character starts. -/
def In (scanner : Scanner) (line : String) : Prop :=
  ∃ taken, line.toList = taken ++ scanner.rest ∧ scanner.position = encodedSize taken

theorem In.eq_ofCursor {scanner : Scanner} {line : String} (inside : scanner.In line) :
    ofCursor line scanner.position = scanner := by
  obtain ⟨taken, split, place⟩ := inside
  rw [ofCursor, split, place, dropBytes_append, ← place]

theorem in_ofLine (line : String) : (ofLine line).In line :=
  ⟨[], rfl, rfl⟩

theorem In.behind {scanner : Scanner} {line : String} (inside : scanner.In line)
    {front rest : List Char} (split : scanner.rest = front ++ rest) :
    (scanner.behind front rest).In line := by
  obtain ⟨taken, whole, place⟩ := inside
  refine ⟨taken ++ front, ?_, ?_⟩
  · rw [whole, split, List.append_assoc]
    rfl
  · rw [encodedSize_append, ← place]
    rfl

theorem In.skipBlanks {scanner : Scanner} {line : String} (inside : scanner.In line) :
    scanner.skipBlanks.In line :=
  inside.behind List.takeWhile_append_dropWhile.symm

theorem skipBlanks_skipBlanks (scanner : Scanner) :
    scanner.skipBlanks.skipBlanks = scanner.skipBlanks := by
  have stop : ∀ next ∈ (scanner.rest.dropWhile isBlank).head?, isBlank next = false :=
    fun _ first => of_mem_head?_dropWhile first
  have nothing : ∀ character ∈ ([] : List Char), isBlank character = true :=
    List.forall_mem_nil _
  have taken := takeWhile_append_of_stop nothing stop
  have left := dropWhile_append_of_stop nothing stop
  rw [List.nil_append] at taken left
  simp only [Scanner.skipBlanks, Scanner.behind, taken, left]
  rfl

theorem offset_of_take {scanner after : Scanner} {token : Token}
    (taken : scanner.take = .ok (token, after)) : token.offset = scanner.position := by
  unfold take at taken
  split at taken
  · cases taken
    rfl
  · split at taken
    · simp only [takeNumeral] at taken
      split at taken
      · cases taken
        rfl
      · cases taken
    · simp only [takeSingle, Token.ofChar?] at taken
      split at taken
      · next single =>
          obtain ⟨kind, _, rfl⟩ := Option.map_eq_some_iff.mp single
          cases taken
          rfl
      · cases taken

theorem In.take {scanner after : Scanner} {line : String} {token : Token}
    (inside : scanner.In line) (taken : scanner.take = .ok (token, after)) : after.In line := by
  unfold Scanner.take at taken
  split at taken
  · cases taken
    exact inside
  · next first rest split =>
      split at taken
      · simp only [takeNumeral] at taken
        split at taken
        · cases taken
          exact inside.behind (Numeral.read_chars_append scanner.rest).symm
        · cases taken
      · simp only [takeSingle] at taken
        split at taken
        · cases taken
          exact inside.behind split
        · cases taken

theorem In.next {scanner : Scanner} {line : String} (inside : scanner.In line) :
    scanner.next.2.In line := by
  unfold Scanner.next
  split
  · next taken => exact inside.skipBlanks.take taken
  · exact inside

/-- From the byte where a token starts the same token is scanned, up to the same place. -/
theorem In.rescan {scanner after : Scanner} {line : String} {token : Token}
    (inside : scanner.In line) (answered : scanner.next = (.ok token, after)) :
    (ofCursor line token.offset).next = (.ok token, after) := by
  have taken : scanner.skipBlanks.take = .ok (token, after) := by
    unfold Scanner.next at answered
    split at answered
    · next taken =>
        cases answered
        exact taken
    · cases answered
  rw [offset_of_take taken, inside.skipBlanks.eq_ofCursor]
  simp only [Scanner.next, skipBlanks_skipBlanks, taken]

end Scanner

/-! ### The rescanner -/

structure Rescanner where
  line : String
  cursor : Nat

namespace Rescanner

def empty : Rescanner :=
  ⟨"", 0⟩

def next (rescanner : Rescanner) : Except Fault Token × Rescanner :=
  let answer := (Scanner.ofCursor rescanner.line rescanner.cursor).next
  (answer.1, { rescanner with cursor := answer.2.position })

/-- The cursor moves to where the token starts, and so the token is scanned again. -/
def putBack (rescanner : Rescanner) (token : Token) : Rescanner :=
  { rescanner with cursor := token.offset }

def machine : Machine Rescanner :=
  { next := next
    putBack := putBack
    onLine := fun _ line => ⟨line, 0⟩ }

end Rescanner

namespace Evaluator

/-- The scanner stands in the line, and a pending token is the one that the line has at
its byte, with the scanner behind it. -/
structure Aligned (evaluator : Evaluator) (line : String) : Prop where
  scanner : evaluator.scanner.In line
  pending : ∀ token, evaluator.pending = some token →
    (Scanner.ofCursor line token.offset).next = (.ok token, evaluator.scanner)

theorem aligned_onLine (evaluator : Evaluator) (line : String) :
    (evaluator.onLine line).Aligned line where
  scanner := Scanner.in_ofLine line
  pending _ absent := by cases absent

theorem Aligned.next {evaluator : Evaluator} {line : String} (aligned : evaluator.Aligned line) :
    evaluator.next.2.Aligned line where
  scanner := by
    unfold Evaluator.next
    split
    · exact aligned.scanner
    · exact aligned.scanner.next
  pending token held := by
    rw [pending_next] at held
    cases held

theorem Aligned.putBack {evaluator : Evaluator} {line : String} {token : Token}
    (aligned : evaluator.Aligned line) (answered : evaluator.next.1 = .ok token) :
    (evaluator.next.2.putBack token).Aligned line where
  scanner := aligned.next.scanner
  pending other held := by
    cases held
    cases pending : evaluator.pending with
    | some held =>
        simp only [Evaluator.next, pending, Except.ok.injEq] at answered ⊢
        subst answered
        exact aligned.pending held pending
    | none =>
        simp only [Evaluator.next, pending, Journal.scan] at answered ⊢
        exact aligned.scanner.rescan (Prod.ext answered rfl)

/-- The byte at which a rescanner of the line has to stand. -/
def cursor (evaluator : Evaluator) : Nat :=
  match evaluator.pending with
  | some token => token.offset
  | none => evaluator.scanner.position

theorem next_eq_of_pending {evaluator : Evaluator} {token : Token}
    (held : evaluator.pending = some token) :
    evaluator.next = (.ok token, { evaluator with pending := none }) := by
  simp only [Evaluator.next, held]

theorem next_eq_of_no_pending {evaluator : Evaluator} (nothing : evaluator.pending = none) :
    evaluator.next.1 = evaluator.scanner.next.1 ∧
      evaluator.next.2.scanner = evaluator.scanner.next.2 := by
  simp only [Evaluator.next, nothing, Journal.scan, and_self]

end Evaluator

namespace Rescanner

def Mirrors (evaluator : Evaluator) (rescanner : Rescanner) : Prop :=
  evaluator.Aligned rescanner.line ∧ rescanner.cursor = evaluator.cursor

private theorem next_of_mirrors {evaluator : Evaluator} {rescanner : Rescanner}
    (mirrors : Mirrors evaluator rescanner) :
    rescanner.next =
      (evaluator.next.1, ⟨rescanner.line, evaluator.next.2.scanner.position⟩) := by
  obtain ⟨aligned, place⟩ := mirrors
  unfold next
  rw [place]
  cases held : evaluator.pending with
  | some token =>
      have again := aligned.pending token held
      simp only [Evaluator.cursor, held, again, Evaluator.next_eq_of_pending held]
  | none =>
      obtain ⟨same, left⟩ := Evaluator.next_eq_of_no_pending held
      simp only [Evaluator.cursor, held, aligned.scanner.eq_ofCursor, same, left]

theorem follows : machine.Follows Mirrors where
  agrees :=
    { next := by
        intro evaluator rescanner mirrors
        change evaluator.next.1 = rescanner.next.1 ∧ Mirrors evaluator.next.2 rescanner.next.2
        rw [next_of_mirrors mirrors]
        refine ⟨rfl, mirrors.1.next, ?_⟩
        simp only [Evaluator.cursor, Evaluator.pending_next]
      putBack := by
        intro evaluator rescanner token mirrors answered
        change Mirrors (evaluator.next.2.putBack token) (rescanner.next.2.putBack token)
        rw [next_of_mirrors mirrors]
        exact ⟨mirrors.1.putBack answered, rfl⟩ }
  onLine evaluator rescanner line _ := ⟨evaluator.aligned_onLine line, rfl⟩
  note _ _ _ mirrors := ⟨⟨mirrors.1.scanner, mirrors.1.pending⟩, mirrors.2⟩

end Rescanner

/-! ### The evaluator under watch -/

/-- An evaluator with its line, and whether all that was put back until now was put
back soundly. -/
structure Watched where
  evaluator : Evaluator
  line : String
  sound : Prop

namespace Watched

def empty : Watched :=
  ⟨.empty, "", True⟩

def next (watched : Watched) : Except Fault Token × Watched :=
  (watched.evaluator.next.1, { watched with evaluator := watched.evaluator.next.2 })

/-- A token is put back soundly where none is pending, and where it is the one that the
line has at its byte. -/
def putBack (watched : Watched) (token : Token) : Watched :=
  { watched with
    evaluator := watched.evaluator.putBack token
    sound := watched.sound ∧ watched.evaluator.pending = none ∧
      (Scanner.ofCursor watched.line token.offset).next =
        (.ok token, watched.evaluator.scanner) }

def onLine (watched : Watched) (line : String) : Watched :=
  { watched with
    evaluator := watched.evaluator.onLine line
    line := line }

def machine : Machine Watched :=
  { next := next
    putBack := putBack
    onLine := onLine }

/-- The evaluators are the same but for what their journals note. -/
def Watches (evaluator : Evaluator) (watched : Watched) : Prop :=
  watched.sound ∧ evaluator.Aligned watched.line ∧
    ∃ journal, watched.evaluator = { evaluator with journal := journal }

private theorem exists_journal_next (evaluator : Evaluator) (journal : Journal) :
    ({ evaluator with journal := journal } : Evaluator).next.1 = evaluator.next.1 ∧
      ∃ journal', ({ evaluator with journal := journal } : Evaluator).next.2 =
        { evaluator.next.2 with journal := journal' } := by
  cases held : evaluator.pending with
  | some token =>
      simp only [Evaluator.next, held, true_and]
      exact ⟨journal, rfl⟩
  | none =>
      simp only [Evaluator.next, held, Journal.scan, true_and]
      exact ⟨_, rfl⟩

theorem follows : machine.Follows Watches where
  agrees :=
    { next := by
        rintro evaluator ⟨_, line, sound⟩ ⟨isSound, aligned, journal, rfl⟩
        obtain ⟨same, after⟩ := exists_journal_next evaluator journal
        exact ⟨same.symm, isSound, aligned.next, after⟩
      putBack := by
        rintro evaluator ⟨_, line, sound⟩ token ⟨isSound, aligned, journal, rfl⟩ answered
        obtain ⟨_, journal', after⟩ := exists_journal_next evaluator journal
        have back := aligned.putBack answered
        refine ⟨⟨isSound, ?_, ?_⟩, back, journal', ?_⟩
        · exact Evaluator.pending_next _
        · change (Scanner.ofCursor line token.offset).next =
            (.ok token, ({ evaluator with journal := journal } : Evaluator).next.2.scanner)
          rw [after]
          exact back.pending token rfl
        · change Evaluator.putBack
            ({ evaluator with journal := journal } : Evaluator).next.2 token = _
          rw [after]
          rfl }
  onLine := by
    rintro evaluator ⟨_, line, sound⟩ other ⟨isSound, _, journal, rfl⟩
    exact ⟨isSound, evaluator.aligned_onLine other, journal, rfl⟩
  note := by
    rintro evaluator watched event ⟨isSound, aligned, journal, same⟩
    exact ⟨isSound, ⟨aligned.scanner, aligned.pending⟩, journal, same⟩

end Watched

/-! ### Any sequence of queries -/

namespace Evaluator

theorem aligned_empty : Evaluator.empty.Aligned "" where
  scanner := Scanner.in_ofLine ""
  pending _ absent := by cases absent

/-- Whatever is asked in a row, a rescanner gives the responses of the evaluator and no
others.  The token that is pending afterwards is the one at its byte of the line, and
whatever was put back on the way was put back soundly. -/
theorem serveAll_iff_rescanned (queries : List Query) :
    ∃ rescanner : Rescanner,
      (∀ responses state, ServesAll Rescanner.machine queries .empty responses state ↔
        responses = (Evaluator.empty.serveAll queries).1 ∧ state = rescanner) ∧
      (∀ token, (Evaluator.empty.serveAll queries).2.pending = some token →
        (Scanner.ofCursor rescanner.line token.offset).next =
          (.ok token, (Evaluator.empty.serveAll queries).2.scanner)) ∧
      (∃ watched, ServesAll Watched.machine queries .empty
        (Evaluator.empty.serveAll queries).1 watched) ∧
      ∀ responses watched, ServesAll Watched.machine queries .empty responses watched →
        watched.sound := by
  have mirrors : Rescanner.Mirrors Evaluator.empty .empty := ⟨aligned_empty, rfl⟩
  have watches : Watched.Watches Evaluator.empty .empty := ⟨trivial, aligned_empty, #[], rfl⟩
  obtain ⟨rescanner, serves, still⟩ := Rescanner.follows.servesAll mirrors queries
  obtain ⟨watched, watchedServes, isSound, _⟩ := Watched.follows.servesAll watches queries
  refine ⟨rescanner, ?_, still.1.pending, ⟨watched, watchedServes⟩, ?_⟩
  · intro responses state
    constructor
    · exact fun other => other.unique serves
    · rintro ⟨rfl, rfl⟩
      exact serves
  · intro responses other watchedOther
    obtain ⟨_, rfl⟩ := watchedOther.unique watchedServes
    exact isSound

end Evaluator
end Abacus
