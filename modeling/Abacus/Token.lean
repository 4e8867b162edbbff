/-
Tokens: the pieces that a line is made of.

A line ends at a line feed or with the input.  Two tokens agree when they mean the same and
are spelled the same; where they stand makes no difference.
-/

import Abacus.Binary64.Text
import Abacus.Text.Escape

namespace Abacus

inductive Operator where
  | plus
  | minus
  | times
  | divide
deriving DecidableEq

/-- Every pair has a value: division by zero gives an infinity or not-a-number. -/
def Operator.apply : Operator → Binary64 → Binary64 → Binary64
  | .plus, left, right => left + right
  | .minus, left, right => left - right
  | .times, left, right => left * right
  | .divide, left, right => left / right

inductive Kind where
  | number (value : Binary64)
  | operator (operator : Operator)
  | openParen
  | closeParen
  | lineEnd
  | inputEnd
deriving DecidableEq

structure Token where
  kind : Kind
  text : String
  offset : Nat
deriving DecidableEq

namespace Kind

def name : Kind → String
  | number _ => "Number"
  | operator .plus => "Add"
  | operator .minus => "Sub"
  | operator .times => "Mul"
  | operator .divide => "Div"
  | openParen => "LParen"
  | closeParen => "RParen"
  | lineEnd => "EndOfLine"
  | inputEnd => "EndOfInput"

def ofChar? : Char → Option Kind
  | '+' => some (operator .plus)
  | '-' => some (operator .minus)
  | '*' => some (operator .times)
  | '/' => some (operator .divide)
  | '(' => some openParen
  | ')' => some closeParen
  | '\n' => some lineEnd
  | _ => none

/-- Only a number has a value of its own; all else counts as `0`. -/
def value : Kind → Binary64
  | number value => value
  | _ => Binary64.zero

def isTerminator : Kind → Bool
  | lineEnd => true
  | inputEnd => true
  | _ => false

end Kind

namespace Token

def number (text : String) (value : Binary64) (offset : Nat) : Token :=
  ⟨.number value, text, offset⟩

def inputEnd (offset : Nat) : Token :=
  ⟨.inputEnd, "", offset⟩

/-- A line feed has no text of its own. -/
def ofChar? (character : Char) (offset : Nat) : Option Token :=
  (Kind.ofChar? character).map fun kind =>
    ⟨kind, if kind = .lineEnd then "" else character.toString, offset⟩

def value (token : Token) : Binary64 :=
  token.kind.value

def isTerminator (token : Token) : Bool :=
  token.kind.isTerminator

def describe (token : Token) : String :=
  match token.kind with
  | .lineEnd => "end of line"
  | .inputEnd => "end of input"
  | _ => "'" ++ token.text ++ "'"

def agrees (left right : Token) : Bool :=
  left.kind = right.kind ∧ left.text = right.text

instance : ToString Token where
  toString token :=
    "Token\x7bkind: " ++ token.kind.name ++ ", text: " ++ Text.quoted token.text ++
      ", value: " ++ token.value.text ++ "\x7d"

theorem isTerminator_iff (token : Token) :
    token.isTerminator = true ↔ token.kind = .lineEnd ∨ token.kind = .inputEnd := by
  unfold isTerminator
  cases token.kind <;> simp [Kind.isTerminator]

/-! ### Laws of agreement -/

theorem agrees_iff (left right : Token) :
    left.agrees right = true ↔ left.kind = right.kind ∧ left.text = right.text := by
  simp only [agrees, decide_eq_true_eq]

/-- Tokens that agree differ at most in where they stand. -/
theorem agrees_iff_exists_offset (left right : Token) :
    left.agrees right = true ↔
      ∃ offset, { left with offset := offset } = right := by
  rw [agrees_iff]
  constructor
  · intro same
    cases right with
    | mk kind text offset =>
        refine ⟨offset, ?_⟩
        rw [same.1, same.2]
  · intro same
    obtain ⟨offset, moved⟩ := same
    subst moved
    exact ⟨rfl, rfl⟩

end Token
end Abacus
