/-
A session that hears its input byte by byte, so that a line is answered before the next.
-/

import Abacus.Session

namespace Abacus

structure Listener where
  session : Session
  line : ByteArray

namespace Listener

open Session (Ending announce banner prompt)

def start (session : Session) : Listener :=
  ⟨session, .empty⟩

def greeting (interactive : Bool) : Output :=
  (announce interactive prompt (announce interactive banner .unbounded).2).2

def answer (interactive : Bool) (listener : Listener) : Option Ending × Listener × Output :=
  match listener.session.turn .unbounded listener.line.data.toList with
  | (some ending, after, said) => (some ending, start after, said)
  | (none, after, said) => (none, start after, (announce interactive prompt said).2)

/-- The end of the input, for which there is no byte, ends a line that has begun, and else the
run. -/
def hear (interactive : Bool) (listener : Listener) :
    Option UInt8 → Option Ending × Listener × Output
  | some byte =>
      let longer := { listener with line := listener.line.push byte }
      if byte = 0x0a then longer.answer interactive else (none, longer, .unbounded)
  | none =>
      if listener.line.isEmpty then (some .finished, start listener.session.close, .unbounded)
      else listener.answer interactive

end Listener
end Abacus
