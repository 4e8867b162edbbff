/-
The value of a line.  Nothing of an earlier line matters.
-/

import Abacus.Evaluator.Read

namespace Abacus
namespace Evaluator

def outcome (line : String) : Except Fault Binary64 → Event
  | .ok value => .evaluated line value
  | .error fault => .rejected line fault

/-- What follows the expression stays to be read. -/
def readLeading (evaluator : Evaluator) (line : String) :
    Except Fault Binary64 × Evaluator :=
  let reading := ((evaluator.note (.reading line)).onLine line).read .expression
  (reading.1, reading.2.note (outcome line reading.1))

/-- The line has to be an expression up to its end or its first line feed. -/
def readWhole (evaluator : Evaluator) (line : String) :
    Except Fault Binary64 × Evaluator :=
  match evaluator.readLeading line with
  | (.error fault, after) => (.error fault, after)
  | (.ok value, after) =>
      match after.next with
      | (.error fault, last) => (.error fault, last)
      | (.ok token, last) =>
          (if token.isTerminator then .ok value else .error (.misplaced token), last)

end Evaluator

def evaluate (line : String) : Except Fault Binary64 :=
  (Evaluator.empty.readWhole line).1

end Abacus
