/-
Output that may be bounded: a write that does not fit is cut, even in a character.
-/

namespace Abacus

structure Output where
  capacity : Option Nat
  bytes : ByteArray

namespace Output

def unbounded : Output :=
  ⟨none, .empty⟩

def bounded (capacity : Nat) : Output :=
  ⟨some capacity, .empty⟩

def admits (output : Output) (size : Nat) : Bool :=
  match output.capacity with
  | none => true
  | some capacity => size ≤ capacity

/-- Tells, too, whether all of the text fits. -/
def write (output : Output) (text : String) : Bool × Output :=
  let whole := output.bytes ++ text.toUTF8
  if output.admits whole.size then (true, { output with bytes := whole })
  else (false, { output with bytes := whole.extract 0 (output.capacity.getD 0) })

/-! ### Laws of writing -/

theorem write_unbounded (output : Output) (text : String)
    (free : output.capacity = none) :
    output.write text = (true, { output with bytes := output.bytes ++ text.toUTF8 }) := by
  simp only [write, admits, free, if_true]

end Output
end Abacus
