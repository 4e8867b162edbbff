/-
A session: lines are answered until the input ends or one of them says `exit`.

Input is bytes.  A line ends with its line feed, and a line that is not UTF-8 stops the
session before it is answered.  So does an output that is full, and a value that is to be
printed with more places than there may be.
-/

import Abacus.Evaluator.Line
import Abacus.Output
import Abacus.Text.Trim

namespace Abacus

/-! ### Answers -/

/-- Nothing when a value has to be printed with more places than there may be. -/
def answerText? (precision : Nat) : Except Fault Binary64 → Option String
  | .ok value => (value.fixed? precision).map ("= " ++ ·)
  | .error fault => some ("Error: " ++ fault.message)

inductive Reply where
  | print (text : String)
  | skip
  | leave
  | refused
deriving DecidableEq

structure Session where
  evaluator : Evaluator
  precision : Nat

namespace Session

def defaultPrecision : Nat :=
  6

def exitCommand : String :=
  "exit"

def start (precision : Nat) : Session :=
  ⟨.empty, precision⟩

def reply (session : Session) (line : String) : Reply × Session :=
  let trimmed := Text.trim line
  if trimmed = exitCommand then (.leave, session)
  else if trimmed = "" then (.skip, session)
  else
    let reading := session.evaluator.readWhole trimmed
    let after := { session with evaluator := reading.2 }
    match answerText? session.precision reading.1 with
    | some text => (.print text, after)
    | none => (.refused, after)

/-! ### Lines of bytes -/

/-- A line feed is a line of its own or ends the line in front of it. -/
def consByte (byte : UInt8) : List (List UInt8) → List (List UInt8)
  | [] => [[byte]]
  | line :: lines => if byte = 0x0a then [byte] :: line :: lines else (byte :: line) :: lines

def lines (input : List UInt8) : List (List UInt8) :=
  input.foldr consByte []

/-! ### Running -/

inductive Ending where
  | finished
  | invalidText
  | outputFull
  | precisionRefused
deriving DecidableEq

structure Run where
  ending : Ending
  session : Session
  output : Output

def banner : String :=
  "simple calculator:\n" ++
  "    - type 'exit' to exit\n" ++
  "    - support integer and floating number\n" ++
  "    - support '+', '-', '*', '/' and parentheses\n" ++
  "    - the result is double float value\n" ++
  "    - example: '1.5 + 2 * (-1 - 2.2) / 10', the result is 0.860000\n"

def prompt : String :=
  "> "

def announce (interactive : Bool) (text : String) (output : Output) : Bool × Output :=
  if interactive then output.write text else (true, output)

/-- How the run ends, if it ends at the line. -/
def turn (session : Session) (output : Output) (line : List UInt8) :
    Option Ending × Session × Output :=
  match String.fromUTF8? ⟨line.toArray⟩ with
  | none => (some .invalidText, session, output)
  | some text =>
      match session.reply text with
      | (.leave, after) => (some .finished, after, output)
      | (.refused, after) => (some .precisionRefused, after, output)
      | (.skip, after) => (none, after, output)
      | (.print answer, after) =>
          match output.write (answer ++ "\n") with
          | (true, written) => (none, after, written)
          | (false, written) => (some .outputFull, after, written)

def close (session : Session) : Session :=
  { session with evaluator := session.evaluator.note .inputClosed }

def converse (interactive : Bool) :
    Session → Output → List (List UInt8) → Run
  | session, output, [] =>
      match announce interactive prompt output with
      | (false, written) => ⟨.outputFull, session, written⟩
      | (true, written) => ⟨.finished, session.close, written⟩
  | session, output, line :: rest =>
      match announce interactive prompt output with
      | (false, written) => ⟨.outputFull, session, written⟩
      | (true, written) =>
          match session.turn written line with
          | (some ending, after, last) => ⟨ending, after, last⟩
          | (none, after, last) => converse interactive after last rest

def run (session : Session) (interactive : Bool) (output : Output)
    (input : List UInt8) : Run :=
  match announce interactive banner output with
  | (false, written) => ⟨.outputFull, session, written⟩
  | (true, written) => converse interactive session written (lines input)

end Session
end Abacus
