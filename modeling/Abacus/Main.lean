/-
The program: it reads bytes, lets the library decide, and writes bytes.
-/

import Abacus.CommandLine.Report
import Abacus.Listener

namespace Abacus.Program

def writeOut (bytes : ByteArray) : IO Unit := do
  let output ← IO.getStdout
  output.write bytes
  output.flush

def deliver (report : CommandLine.Report) : IO UInt32 := do
  writeOut report.output
  (← IO.getStderr).putStr report.problems
  return UInt32.ofNat report.code

/-- Hears the standard input byte by byte, and writes what is said as soon as it is. -/
partial def converse (interactive : Bool) (listener : Listener) : IO UInt32 := do
  let bytes ← (← IO.getStdin).read 1
  match listener.hear interactive bytes[0]? with
  | (some ending, after, said) => deliver (CommandLine.report ⟨ending, after.session, said⟩)
  | (none, after, said) =>
      unless said.bytes.isEmpty do writeOut said.bytes
      converse interactive after

def failure : IO.Error → CommandLine.SystemFailure
  | .alreadyExists _ code words => ⟨code.toNat, words⟩
  | .otherError code words => ⟨code.toNat, words⟩
  | .resourceBusy code words => ⟨code.toNat, words⟩
  | .resourceVanished code words => ⟨code.toNat, words⟩
  | .unsupportedOperation code words => ⟨code.toNat, words⟩
  | .hardwareFault code words => ⟨code.toNat, words⟩
  | .unsatisfiedConstraints code words => ⟨code.toNat, words⟩
  | .illegalOperation code words => ⟨code.toNat, words⟩
  | .protocolError code words => ⟨code.toNat, words⟩
  | .timeExpired code words => ⟨code.toNat, words⟩
  | .interrupted _ code words => ⟨code.toNat, words⟩
  | .noFileOrDirectory _ code words => ⟨code.toNat, words⟩
  | .invalidArgument _ code words => ⟨code.toNat, words⟩
  | .permissionDenied _ code words => ⟨code.toNat, words⟩
  | .resourceExhausted _ code words => ⟨code.toNat, words⟩
  | .inappropriateType _ code words => ⟨code.toNat, words⟩
  | .noSuchThing _ code words => ⟨code.toNat, words⟩
  | error => ⟨0, toString error⟩

def readSource (path : String) : IO CommandLine.Source := do
  match ← (IO.FS.Handle.mk path .read).toBaseIO with
  | .error error => return .unavailable (failure error)
  | .ok handle =>
      match ← handle.readBinToEnd.toBaseIO with
      | .error error => return .unreadable (failure error)
      | .ok bytes => return .content bytes.data.toList

def respond (arguments : List String) : IO UInt32 := do
  match CommandLine.request arguments with
  | .ok (.evaluate ⟨.standard, precision, quiet⟩) =>
      writeOut (Listener.greeting (!quiet)).bytes
      converse (!quiet) (.start (.start precision))
  | .ok (.evaluate ⟨.file path, _, _⟩) =>
      let source ← readSource path
      deliver (CommandLine.perform [] (fun _ => source) arguments)
  | _ => deliver (CommandLine.perform [] (fun _ => .content []) arguments)

end Abacus.Program

def main (arguments : List String) : IO UInt32 :=
  Abacus.Program.respond arguments
