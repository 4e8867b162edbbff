/-
The journal: what happened while lines were read, and how much of it is told.

It holds all events, and only those at the level asked for or at a graver one are told.  A
scan that found the end of the input or a fault is noted and never told.
-/

import Abacus.Scanner

namespace Abacus

inductive Event where
  | reading (line : String)
  | scanned (answer : Except Fault Token)
  | evaluated (line : String) (value : Binary64)
  | rejected (line : String) (fault : Fault)
  | inputClosed

abbrev Journal := Array Event

/-- From the gravest on. -/
inductive Severity where
  | error
  | warning
  | information
  | debug
  | trace
deriving DecidableEq

namespace Severity

def rank : Severity → Nat
  | error => 1
  | warning => 2
  | information => 3
  | debug => 4
  | trace => 5

def label : Severity → String
  | error => "ERROR"
  | warning => "WARN"
  | information => "INFO"
  | debug => "DEBUG"
  | trace => "TRACE"

end Severity

namespace Event

def severity : Event → Severity
  | scanned _ => .trace
  | _ => .debug

def text? : Event → Option String
  | reading line => some ("parsing " ++ Text.quoted line)
  | scanned (.ok token) =>
      if token.kind = .inputEnd then none else some ("lexed " ++ toString token)
  | scanned (.error _) => none
  | evaluated line value =>
      some ("evaluated " ++ Text.quoted line ++ " to " ++ value.text)
  | rejected line fault =>
      some ("rejected " ++ Text.quoted line ++ ": " ++ fault.message)
  | inputClosed => some "input closed"

def record? (least : Severity) (event : Event) : Option String :=
  if event.severity.rank ≤ least.rank then
    event.text?.map (event.severity.label ++ " " ++ ·)
  else none

end Event

namespace Journal

def records (least : Severity) (journal : Journal) : List String :=
  journal.toList.filterMap (Event.record? least)

def scan (journal : Journal) (scanner : Scanner) :
    Except Fault Token × Scanner × Journal :=
  let answer := scanner.next
  (answer.1, answer.2, journal.push (.scanned answer.1))

end Journal
end Abacus
