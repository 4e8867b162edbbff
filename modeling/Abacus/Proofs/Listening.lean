/-
An input that arrives byte by byte.

A listener answers a line as soon as it has heard it and says the prompt for the next line
at once.  What it says, put together, is what a session writes that is run on the input as
a whole, and both end in the same way.
-/

import Abacus.Listener
import Abacus.Proofs.BoundedOutput

namespace Abacus

/-- The output with what is said next behind what it holds. -/
def Output.joined (output said : Output) : Output :=
  { output with bytes := output.bytes ++ said.bytes }

namespace Output

theorem joined_followedBy (output said : Output) (text : String) :
    output.joined (said.followedBy text) = (output.joined said).followedBy text := by
  simp only [joined, followedBy, ByteArray.append_assoc]

theorem joined_unbounded (output : Output) : output.joined unbounded = output :=
  output.followedBy_empty

end Output

/-- What is said about a line is the same for all outputs without a bound. -/
theorem Session.exists_turn_said (session : Session) (line : List UInt8) :
    ∃ ending after said, ∀ output : Output, output.capacity = none →
      session.turn output line = (ending, after, output.followedBy said) := by
  rcases session.exists_turn line with ⟨ending, after, _, turned⟩ | ⟨answer, after, turned⟩
  · refine ⟨some ending, after, "", ?_⟩
    intro output _
    rw [turned, output.followedBy_empty]
  · refine ⟨none, after, answer, ?_⟩
    intro output free
    have fits : output.Fits := by rw [Output.Fits, Output.admits, free]
    rw [turned output fits, output.write_unbounded _ free]
    rfl

namespace Listener

open Session

/-- What has been said when the run ends, if it ends while all this is heard. -/
def follow (interactive : Bool) : Listener → Output → List (Option UInt8) → Option Run
  | _, _, [] => none
  | listener, output, heard :: rest =>
      match listener.hear interactive heard with
      | (some ending, after, said) => some ⟨ending, after.session, output.joined said⟩
      | (none, after, said) => follow interactive after (output.joined said) rest

/-- The listener that has heard these bytes of a line. -/
def within (session : Session) (line : List UInt8) : Listener :=
  ⟨session, ⟨line.toArray⟩⟩

section

variable {interactive : Bool} {session : Session} {output : Output}

theorem hear_within (byte : UInt8) (line : List UInt8) :
    (within session line).hear interactive (some byte) =
      if byte = 0x0a then (within session (line ++ [byte])).answer interactive
      else (none, within session (line ++ [byte]), .unbounded) := by
  have longer : (ByteArray.mk line.toArray).push byte = ⟨(line ++ [byte]).toArray⟩ :=
    ByteArray.ext (List.push_toArray line byte)
  simp only [hear, within, longer]

theorem follow_body {body : List UInt8} (noFeed : 0x0a ∉ body) (line : List UInt8)
    (rest : List (Option UInt8)) :
    follow interactive (within session line) output (body.map some ++ rest) =
      follow interactive (within session (line ++ body)) output rest := by
  induction body generalizing line with
  | nil => rw [List.append_nil, List.map_nil, List.nil_append]
  | cons byte body ih =>
      have other : byte ≠ 0x0a := fun feed => noFeed (by rw [feed]; exact List.mem_cons_self)
      have heard : (within session line).hear interactive (some byte) = _ := hear_within byte line
      rw [if_neg other] at heard
      rw [List.map_cons, List.cons_append, follow, heard, List.append_cons line byte body]
      simp only [output.joined_unbounded]
      exact ih (fun member => noFeed (List.mem_cons_of_mem byte member)) (line ++ [byte])

/-- Where a line has ended it has its turn, and if the run goes on it goes on with a prompt. -/
theorem follow_line {heard : Option UInt8} {listener : Listener} {line : List UInt8}
    {behind : List (Option UInt8)} {rest : List (List UInt8)}
    (answers : listener.hear interactive heard = (within session line).answer interactive)
    (free : output.capacity = none)
    (goesOn : ∀ (after : Session) (last : Output), last.capacity = none →
      follow interactive (start after) (last.followedBy (shown interactive prompt)) behind =
        some (converse interactive after last rest)) :
    follow interactive listener (output.followedBy (shown interactive prompt))
        (heard :: behind) =
      some (converse interactive session output (line :: rest)) := by
  obtain ⟨ending, after, said, turned⟩ := session.exists_turn_said line
  have freePrompted : (output.followedBy (shown interactive prompt)).capacity = none := free
  have turnedAlone : (within session line).session.turn .unbounded
      (within session line).line.data.toList = _ := turned .unbounded rfl
  rw [follow, answers, answer, turnedAlone]
  simp only [converse, announce_eq free, turned _ freePrompted]
  cases ending with
  | some ending => simp only [start, Output.joined_followedBy, Output.joined_unbounded]
  | none =>
      have freeSaid : (Output.unbounded.followedBy said).capacity = none := rfl
      simp only [announce_eq freeSaid, Output.joined_followedBy, Output.joined_unbounded]
      exact goesOn after _ free

theorem hear_end {line : List UInt8} (notEmpty : line ≠ []) :
    (within session line).hear interactive none = (within session line).answer interactive := by
  cases line with
  | nil => exact absurd rfl notEmpty
  | cons byte rest => rfl

theorem follow_end (free : output.capacity = none) (more : List (Option UInt8)) :
    follow interactive (start session) (output.followedBy (shown interactive prompt))
        (none :: more) =
      some (converse interactive session output []) := by
  simp only [converse, announce_eq free]
  exact congrArg (fun last => some (Run.mk .finished session.close last))
    (Output.joined_unbounded _)

end

/-- Behind the prompt for its first line, hearing an input is a conversation about its lines.
The end of the input is heard twice where it ends a line. -/
theorem follow_eq_converse (interactive : Bool) (session : Session) (input : List UInt8)
    {output : Output} (free : output.capacity = none) (more : List (Option UInt8)) :
    follow interactive (start session) (output.followedBy (shown interactive prompt))
        (input.map some ++ none :: none :: more) =
      some (converse interactive session output (lines input)) := by
  have nothingHeard : start session = within session [] := rfl
  by_cases feed : 0x0a ∈ input
  · obtain ⟨body, rest, split, noFeed⟩ := List.eq_append_cons_of_mem feed
    rw [split, lines_append noFeed, List.map_append, List.append_assoc, nothingHeard,
      follow_body noFeed, List.map_cons, List.cons_append]
    exact follow_line (hear_within 0x0a body) free fun after last freeLast =>
      follow_eq_converse interactive after rest freeLast more
  · cases input with
    | nil => exact follow_end free (none :: more)
    | cons byte rest =>
        have notEmpty : byte :: rest ≠ [] := List.cons_ne_nil byte rest
        rw [lines_of_not_mem notEmpty feed, nothingHeard, follow_body feed]
        exact follow_line (hear_end notEmpty) free fun after last freeLast =>
          follow_end freeLast more
termination_by input.length
decreasing_by
  rw [split, List.length_append, List.length_cons]
  omega

/-- Nothing is different for a session that hears its input byte by byte. -/
theorem follow_eq_run (interactive : Bool) (session : Session) (input : List UInt8)
    (more : List (Option UInt8)) :
    follow interactive (start session) (greeting interactive)
        (input.map some ++ none :: none :: more) =
      some (session.run interactive .unbounded input) := by
  have free : (Output.unbounded.followedBy (shown interactive banner)).capacity = none := rfl
  have unbounded : Output.unbounded.capacity = none := rfl
  rw [run, greeting, announce_eq unbounded, announce_eq free]
  exact follow_eq_converse interactive session input free more

end Listener
end Abacus
