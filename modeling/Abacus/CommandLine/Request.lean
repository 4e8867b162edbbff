/-
The command line: what the arguments ask for.

Arguments are read from left to right and the first problem counts.  That an expression and
a file exclude each other is only seen at the end.
-/

import Abacus.Session

namespace Abacus
namespace CommandLine

/-! ### What is asked for -/

inductive Input where
  | expression (text : String)
  | file (path : String)
  | standard
deriving DecidableEq

structure Task where
  input : Input
  precision : Nat
  quiet : Bool
deriving DecidableEq

inductive Request where
  | help
  | version
  | evaluate (task : Task)
deriving DecidableEq

inductive Misuse where
  | unknownArgument (argument : String)
  | unexpectedValue (option : String)
  | missingValue (option : String)
  | repeated (option : String)
  | invalidNumber (value : String)
  | conflict
deriving DecidableEq

inductive Flag where
  | file
  | precision
  | quiet
  | help
  | version
deriving DecidableEq

namespace Flag

def name : Flag → String
  | file => "file"
  | precision => "precision"
  | quiet => "quiet"
  | help => "help"
  | version => "version"

/-- A long name may not be shortened. -/
def ofName? (name : String) : Option Flag :=
  [file, precision, quiet, help, version].find? (·.name = name)

def ofChar? : Char → Option Flag
  | 'f' => some file
  | 'p' => some precision
  | 'q' => some quiet
  | 'h' => some help
  | 'V' => some version
  | _ => none

def takesValue : Flag → Bool
  | file => true
  | precision => true
  | _ => false

end Flag

structure Draft where
  expression : Option String
  file : Option String
  precision : Option Nat
  quiet : Bool

namespace Draft

def empty : Draft :=
  ⟨none, none, none, false⟩

/-- Digits, perhaps after a plus, up to the greatest word of 64 bits. -/
def places? (value : String) : Option Nat :=
  let digits :=
    match value.toList with
    | '+' :: digits => digits
    | digits => digits
  if digits = [] || !digits.all Char.isDigit then none
  else
    let number := Nat.ofDigitChars 10 digits 0
    if number < Nat.pow 2 64 then some number else none

def setExpression (draft : Draft) (text : String) : Except Misuse Draft :=
  match draft.expression with
  | some _ => .error (.unknownArgument text)
  | none => .ok { draft with expression := some text }

def setValue (draft : Draft) (flag : Flag) (value : String) : Except Misuse Draft :=
  match flag with
  | .file =>
      if value = "" then .error (.missingValue flag.name)
      else if draft.file.isSome then .error (.repeated flag.name)
      else .ok { draft with file := some value }
  | .precision =>
      match places? value with
      | none => .error (.invalidNumber value)
      | some places =>
          if draft.precision.isSome then .error (.repeated flag.name)
          else .ok { draft with precision := some places }
  | _ => .error (.unexpectedValue flag.name)

def setQuiet (draft : Draft) : Except Misuse Draft :=
  if draft.quiet then .error (.repeated Flag.quiet.name)
  else .ok { draft with quiet := true }

def finish (draft : Draft) : Except Misuse Request :=
  let task := fun (input : Input) =>
    Request.evaluate
      { input := input
        precision := draft.precision.getD Session.defaultPrecision
        quiet := draft.quiet }
  match draft.expression, draft.file with
  | some _, some _ => .error .conflict
  | some text, none => .ok (task (.expression text))
  | none, some path => .ok (task (.file path))
  | none, none => .ok (task .standard)

end Draft

/-! ### Reading arguments -/

/-- What one argument comes to; the value of an awaited option is the next argument. -/
inductive Step where
  | continue (draft : Draft)
  | grant (request : Request)
  | await (flag : Flag) (draft : Draft)

/-- What follows an option with a value is the value, perhaps after an equals sign. -/
def readShort (draft : Draft) : List Char → Except Misuse Step
  | [] => .ok (.continue draft)
  | short :: rest =>
      match Flag.ofChar? short with
      | none => .error (.unknownArgument (String.ofList ['-', short]))
      | some .help => .ok (.grant .help)
      | some .version => .ok (.grant .version)
      | some .quiet =>
          match draft.setQuiet with
          | .error misuse => .error misuse
          | .ok draft => readShort draft rest
      | some flag =>
          match rest with
          | [] => .ok (.await flag draft)
          | '=' :: value => (draft.setValue flag (String.ofList value)).map .continue
          | value => (draft.setValue flag (String.ofList value)).map .continue

def readLong (draft : Draft) (name : String) (value? : Option String) :
    Except Misuse Step :=
  match Flag.ofName? name with
  | none => .error (.unknownArgument ("--" ++ name))
  | some flag =>
      match value? with
      | some value =>
          if flag.takesValue then (draft.setValue flag value).map .continue
          else .error (.unexpectedValue name)
      | none =>
          match flag with
          | .help => .ok (.grant .help)
          | .version => .ok (.grant .version)
          | .quiet => draft.setQuiet.map .continue
          | .file => .ok (.await flag draft)
          | .precision => .ok (.await flag draft)

def splitLong (chars : List Char) : String × Option String :=
  let name := String.ofList (chars.takeWhile (· ≠ '='))
  match chars.dropWhile (· ≠ '=') with
  | [] => (name, none)
  | _ :: value => (name, some (String.ofList value))

def readArgument (draft : Draft) (argument : String) : Except Misuse Step :=
  match argument.toList with
  | '-' :: '-' :: name =>
      let option := splitLong name
      readLong draft option.1 option.2
  | '-' :: short :: rest => readShort draft (short :: rest)
  | _ => (draft.setExpression argument).map .continue

/-- A dash alone can be a value. -/
def isOption (argument : String) : Bool :=
  match argument.toList with
  | '-' :: _ :: _ => true
  | _ => false

def readExpressions (draft : Draft) : List String → Except Misuse Request
  | [] => draft.finish
  | argument :: rest =>
      match draft.setExpression argument with
      | .error misuse => .error misuse
      | .ok draft => readExpressions draft rest

def readArguments (draft : Draft) (awaited : Option Flag) :
    List String → Except Misuse Request
  | [] =>
      match awaited with
      | some flag => .error (.missingValue flag.name)
      | none => draft.finish
  | argument :: rest =>
      match awaited with
      | some flag =>
          if isOption argument then .error (.missingValue flag.name)
          else
            match draft.setValue flag argument with
            | .error misuse => .error misuse
            | .ok draft => readArguments draft none rest
      | none =>
          if argument = "--" then readExpressions draft rest
          else
            match readArgument draft argument with
            | .error misuse => .error misuse
            | .ok (.continue draft) => readArguments draft none rest
            | .ok (.grant request) => .ok request
            | .ok (.await flag draft) => readArguments draft (some flag) rest

def request (arguments : List String) : Except Misuse Request :=
  readArguments .empty none arguments

end CommandLine
end Abacus
