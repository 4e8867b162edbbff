/-
Sessions with a bounded output.

What a session has to write does not depend on its output.  What fits is written, and where
something does not, it is cut and the run ends, before anything else could end it.
-/

import Abacus.Proofs.Transcript

namespace Abacus

namespace Output

/-! ### Writing within a bound -/

def Fits (output : Output) : Prop :=
  output.admits output.bytes.size = true

def cut (output : Output) : Output :=
  { output with bytes := output.bytes.extract 0 (output.capacity.getD 0) }

theorem write_of_fits {output : Output} {text : String} (fits : (output.followedBy text).Fits) :
    output.write text = (true, output.followedBy text) :=
  if_pos fits

theorem write_of_not_fits {output : Output} {text : String}
    (full : ¬ (output.followedBy text).Fits) :
    output.write text = (false, (output.followedBy text).cut) :=
  if_neg full

theorem fits_unbounded (text : String) : (unbounded.followedBy text).Fits :=
  rfl

theorem fits_bounded_iff (capacity : Nat) (text : String) :
    ((bounded capacity).followedBy text).Fits ↔ text.toUTF8.size ≤ capacity := by
  have whole : ByteArray.empty ++ text.toUTF8 = text.toUTF8 := ByteArray.empty_append
  simp only [Fits, admits, followedBy, bounded, whole, decide_eq_true_eq]

theorem exists_capacity_of_not_fits {output : Output} (full : ¬ output.Fits) :
    ∃ capacity, output.capacity = some capacity ∧ capacity < output.bytes.size := by
  obtain ⟨capacity, bytes⟩ := output
  cases capacity with
  | none => exact absurd rfl full
  | some capacity =>
      refine ⟨capacity, rfl, Nat.lt_of_not_le ?_⟩
      intro small
      exact full (decide_eq_true small)

theorem not_fits_followedBy {output : Output} (full : ¬ output.Fits) (more : String) :
    ¬ (output.followedBy more).Fits := by
  obtain ⟨capacity, isCapacity, larger⟩ := exists_capacity_of_not_fits full
  simp only [Fits, admits, followedBy, isCapacity, ByteArray.size_append, decide_eq_true_eq]
  omega

/-- What is cut off makes no difference. -/
theorem cut_followedBy {output : Output} (full : ¬ output.Fits) (more : String) :
    (output.followedBy more).cut = output.cut := by
  obtain ⟨capacity, isCapacity, larger⟩ := exists_capacity_of_not_fits full
  have nothing : capacity - output.bytes.size = 0 := by omega
  simp only [cut, followedBy, isCapacity, Option.getD_some, ByteArray.extract_append,
    Nat.zero_sub, nothing, ByteArray.extract_same, ByteArray.append_empty]

end Output

namespace Session

/-! ### What a session has to write -/

theorem announce_eq_write {output : Output} (fits : output.Fits) (interactive : Bool)
    (text : String) :
    announce interactive text output = output.write (shown interactive text) := by
  cases interactive with
  | true => rfl
  | false =>
      have nothing := output.followedBy_empty
      rw [← nothing] at fits
      exact (congrArg (Prod.mk true) nothing.symm).trans (Output.write_of_fits fits).symm

/-- A line ends the run before anything is written, or its answer is written and the run
goes on unless the output is full.  Either is so for every output. -/
theorem exists_turn (session : Session) (line : List UInt8) :
    (∃ ending after, ending ≠ .outputFull ∧
      ∀ output, session.turn output line = (some ending, after, output)) ∨
    ∃ answer after, ∀ output : Output, output.Fits →
      session.turn output line =
        match output.write answer with
        | (true, written) => (none, after, written)
        | (false, written) => (some .outputFull, after, written) := by
  unfold turn
  cases String.fromUTF8? ⟨line.toArray⟩ with
  | none => exact Or.inl ⟨.invalidText, session, Ending.noConfusion, fun _ => rfl⟩
  | some text =>
      rcases replied : session.reply text with ⟨reply, after⟩
      simp only [replied]
      cases reply with
      | leave => exact Or.inl ⟨.finished, after, Ending.noConfusion, fun _ => rfl⟩
      | refused => exact Or.inl ⟨.precisionRefused, after, Ending.noConfusion, fun _ => rfl⟩
      | print answer => exact Or.inr ⟨answer ++ "\n", after, fun _ _ => rfl⟩
      | skip =>
          -- a line that is passed over is one whose answer is empty
          refine Or.inr ⟨"", after, ?_⟩
          intro output fits
          have nothing := output.followedBy_empty
          rw [← nothing] at fits
          simp only [Output.write_of_fits fits, nothing]

/-- A run that has the text to write and ends like this if the text fits; otherwise the text
is cut, and nothing but the full output ends the run. -/
structure Run.Tells (run : Run) (output : Output) (text : String) (ending : Ending) : Prop where
  whole : (output.followedBy text).Fits → run.output = output.followedBy text ∧ run.ending = ending
  cut : ¬ (output.followedBy text).Fits →
    run.output = (output.followedBy text).cut ∧ run.ending = .outputFull

namespace Run

variable {run : Run} {output : Output} {text : String}

theorem tells_of_full (full : ¬ (output.followedBy text).Fits)
    (written : run.output = (output.followedBy text).cut) (ended : run.ending = .outputFull)
    (more : String) (ending : Ending) : run.Tells output (text ++ more) ending := by
  constructor
  · intro fits
    rw [Output.followedBy_append] at fits
    exact absurd fits (Output.not_fits_followedBy full more)
  · intro _
    rw [Output.followedBy_append, Output.cut_followedBy full]
    exact ⟨written, ended⟩

theorem Tells.behind {more : String} {ending : Ending}
    (tells : run.Tells (output.followedBy text) more ending) :
    run.Tells output (text ++ more) ending := by
  constructor
  · rw [Output.followedBy_append]
    exact tells.whole
  · rw [Output.followedBy_append]
    exact tells.cut

theorem tells_append {more : String} {ending : Ending}
    (goesOn : (output.followedBy text).Fits → run.Tells (output.followedBy text) more ending)
    (stops : ¬ (output.followedBy text).Fits →
      run.output = (output.followedBy text).cut ∧ run.ending = .outputFull) :
    run.Tells output (text ++ more) ending := by
  by_cases fits : (output.followedBy text).Fits
  · exact (goesOn fits).behind
  · obtain ⟨written, ended⟩ := stops fits
    exact tells_of_full fits written ended more ending

end Run

/-- The lines say what is to be written and how the run ends, and the output only whether
all of it is written. -/
theorem exists_tells_converse (interactive : Bool) (lines : List (List UInt8))
    (session : Session) :
    ∃ text ending, ending ≠ .outputFull ∧ ∀ output : Output, output.Fits →
      (converse interactive session output lines).Tells output text ending := by
  induction lines generalizing session with
  | nil =>
      refine ⟨shown interactive prompt, .finished, Ending.noConfusion, ?_⟩
      intro output fits
      unfold converse
      rw [announce_eq_write fits]
      constructor
      · intro prompted
        rw [Output.write_of_fits prompted]
        exact ⟨rfl, rfl⟩
      · intro full
        rw [Output.write_of_not_fits full]
        exact ⟨rfl, rfl⟩
  | cons line lines ih =>
      rcases session.exists_turn line with
        ⟨ending, after, other, turned⟩ | ⟨answer, after, turned⟩
      · refine ⟨shown interactive prompt, ending, other, ?_⟩
        intro output fits
        unfold converse
        rw [announce_eq_write fits]
        constructor
        · intro prompted
          simp only [Output.write_of_fits prompted, turned, and_self]
        · intro full
          rw [Output.write_of_not_fits full]
          exact ⟨rfl, rfl⟩
      · obtain ⟨text, ending, other, told⟩ := ih after
        refine ⟨shown interactive prompt ++ (answer ++ text), ending, other, ?_⟩
        intro output fits
        unfold converse
        rw [announce_eq_write fits]
        apply Run.tells_append
        · intro prompted
          rw [Output.write_of_fits prompted]
          simp only [turned _ prompted]
          apply Run.tells_append
          · intro answered
            rw [Output.write_of_fits answered]
            exact told _ answered
          · intro full
            rw [Output.write_of_not_fits full]
            exact ⟨rfl, rfl⟩
        · intro full
          rw [Output.write_of_not_fits full]
          exact ⟨rfl, rfl⟩

theorem exists_tells (session : Session) (interactive : Bool) (input : List UInt8) :
    ∃ text ending, ending ≠ .outputFull ∧ ∀ output : Output, output.Fits →
      (session.run interactive output input).Tells output text ending := by
  obtain ⟨text, ending, other, told⟩ := exists_tells_converse interactive (lines input) session
  refine ⟨shown interactive banner ++ text, ending, other, ?_⟩
  intro output fits
  unfold run
  rw [announce_eq_write fits]
  apply Run.tells_append
  · intro began
    rw [Output.write_of_fits began]
    exact told _ began
  · intro full
    rw [Output.write_of_not_fits full]
    exact ⟨rfl, rfl⟩

/-- An output with room for all that a run writes holds all of it, and the run ends as it
would without a bound.  A smaller output holds as many of these bytes as there is room for,
and the run ends because it is full, which without a bound never happens. -/
theorem run_bounded (session : Session) (interactive : Bool) (capacity : Nat)
    (input : List UInt8) :
    let free := session.run interactive .unbounded input
    let held := session.run interactive (.bounded capacity) input
    free.ending ≠ .outputFull ∧
      (free.output.bytes.size ≤ capacity →
        held.output.bytes = free.output.bytes ∧ held.ending = free.ending) ∧
      (capacity < free.output.bytes.size →
        held.output.bytes = free.output.bytes.extract 0 capacity ∧
          held.ending = .outputFull) := by
  obtain ⟨text, ending, other, told⟩ := session.exists_tells interactive input
  have fits := Output.fits_bounded_iff capacity text
  obtain ⟨written, ended⟩ := (told .unbounded rfl).whole (Output.fits_unbounded text)
  have held := told (.bounded capacity) (decide_eq_true (Nat.zero_le capacity))
  have bytes : (Output.unbounded.followedBy text).bytes = text.toUTF8 := ByteArray.empty_append
  have same : ((Output.bounded capacity).followedBy text).bytes = text.toUTF8 :=
    ByteArray.empty_append
  simp only [written, ended, bytes]
  refine ⟨other, ?_, ?_⟩
  · intro small
    obtain ⟨heldWritten, heldEnded⟩ := held.whole (fits.mpr small)
    rw [heldWritten]
    exact ⟨same, heldEnded⟩
  · intro large
    obtain ⟨heldWritten, heldEnded⟩ := held.cut fun small => Nat.not_le_of_lt large (fits.mp small)
    rw [heldWritten, ← same]
    exact ⟨rfl, heldEnded⟩

example :
    ((start 65536).run false .unbounded "(\n1\n".toUTF8.toList).ending = .precisionRefused ∧
      ((start 65536).run false (.bounded 4) "(\n1\n".toUTF8.toList).ending = .outputFull := by
  decide +kernel

end Session
end Abacus
