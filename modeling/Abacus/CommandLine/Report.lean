/-
The command line: what is done about the arguments.  Lines from the standard input are
answered in an interactive session, unless it is asked to be quiet.
-/

import Abacus.CommandLine.Request

namespace Abacus
namespace CommandLine

/-! ### What is found and what is left -/

structure SystemFailure where
  code : Nat
  words : String
deriving DecidableEq

def SystemFailure.message (failure : SystemFailure) : String :=
  failure.words ++ " (os error " ++ toString failure.code ++ ")"

/-- What opens under a path may not be readable. -/
inductive Source where
  | content (bytes : List UInt8)
  | unreadable (failure : SystemFailure)
  | unavailable (failure : SystemFailure)

structure Report where
  code : Nat
  output : ByteArray
  problems : String

def misuseCode : Nat :=
  2

def refusedCode : Nat :=
  101

def refusedMessage : String :=
  "Formatting argument out of range"

def invalidTextMessage : String :=
  "stream did not contain valid UTF-8"

def outputFullMessage : String :=
  "failed to write whole buffer"

def failure (reason : String) : String :=
  "I/O error: " ++ reason ++ "\n"

/-! ### Reports -/

def report (run : Session.Run) : Report :=
  match run.ending with
  | .finished => ⟨0, run.output.bytes, ""⟩
  | .invalidText => ⟨1, run.output.bytes, failure invalidTextMessage⟩
  | .outputFull => ⟨1, run.output.bytes, failure outputFullMessage⟩
  | .precisionRefused => ⟨refusedCode, run.output.bytes, refusedMessage ++ "\n"⟩

/-- A value is output, and a fault is a problem. -/
def reportExpression (precision : Nat) (text : String) : Report :=
  let outcome := evaluate text
  match answerText? precision outcome with
  | none => ⟨refusedCode, .empty, refusedMessage ++ "\n"⟩
  | some answer =>
      match outcome with
      | .ok _ => ⟨0, (answer ++ "\n").toUTF8, ""⟩
      | .error _ => ⟨1, .empty, answer ++ "\n"⟩

def reportFile (precision : Nat) (path : String) : Source → Report
  | .content bytes => report ((Session.start precision).run false .unbounded bytes)
  | .unreadable problem => ⟨1, .empty, failure problem.message⟩
  | .unavailable problem =>
      ⟨1, .empty,
        "Failed to read the input file '" ++ path ++ "': " ++ problem.message ++ "\n"⟩

def carryOut (standardInput : List UInt8) (source : String → Source) (task : Task) : Report :=
  match task.input with
  | .expression text => reportExpression task.precision text
  | .file path => reportFile task.precision path (source path)
  | .standard =>
      report ((Session.start task.precision).run (!task.quiet) .unbounded standardInput)

def versionText : String :=
  "linecalc 0.1.0\n"

def helpText : String :=
  "linecalc is a small calculator for one-line arithmetic expressions with " ++
  "+, -, *, /, unary minus and parentheses\n\n" ++
  "Usage: linecalc [OPTIONS] [EXPRESSION]\n\n" ++
  "Arguments:\n" ++
  "  [EXPRESSION]  Evaluates this expression once and exits\n\n" ++
  "Options:\n" ++
  "  -f, --file <FILE>            Reads expressions from a file, one per line, " ++
  "instead of stdin\n" ++
  "  -p, --precision <PRECISION>  Number of fractional digits printed for each " ++
  "result [default: 6]\n" ++
  "  -q, --quiet                  Suppresses the banner and the prompt in " ++
  "interactive mode\n" ++
  "  -h, --help                   Print help\n" ++
  "  -V, --version                Print version\n"

def Misuse.message : Misuse → String
  | .unknownArgument argument => "error: unexpected argument '" ++ argument ++ "' found\n"
  | .unexpectedValue option => "error: unexpected value for '--" ++ option ++ "' found\n"
  | .missingValue option => "error: a value is required for '--" ++ option ++ "'\n"
  | .repeated option =>
      "error: the argument '--" ++ option ++ "' cannot be used multiple times\n"
  | .invalidNumber value => "error: invalid value '" ++ value ++ "' for '--precision'\n"
  | .conflict => "error: the argument '--file' cannot be used with '[EXPRESSION]'\n"

def perform (standardInput : List UInt8) (source : String → Source)
    (arguments : List String) : Report :=
  match request arguments with
  | .error misuse => ⟨misuseCode, .empty, misuse.message⟩
  | .ok .help => ⟨0, helpText.toUTF8, ""⟩
  | .ok .version => ⟨0, versionText.toUTF8, ""⟩
  | .ok (.evaluate task) => carryOut standardInput source task

end CommandLine
end Abacus
