/-
Why a line has no value: some text is no token, a token stands where the grammar has no
place for it, or a parenthesis is not closed.  Positions count bytes.
-/

import Abacus.Token

namespace Abacus

inductive Fault where
  | lexical (detail : String) (position : Nat)
  | unexpected (found : String) (position : Nat)
  | unclosed (position : Nat)
deriving DecidableEq

namespace Fault

def strayCharacter (character : Char) (position : Nat) : Fault :=
  lexical ("unexpected character '" ++ Text.shownAlone character ++ "'") position

def outOfRange (numeral : String) (position : Nat) : Fault :=
  lexical ("numeral '" ++ numeral ++ "' is out of range") position

def misplaced (token : Token) : Fault :=
  unexpected token.describe token.offset

def position : Fault → Nat
  | lexical _ position => position
  | unexpected _ position => position
  | unclosed position => position

def detail? : Fault → Option String
  | lexical detail _ => some detail
  | unexpected found _ => some found
  | unclosed _ => none

def message : Fault → String
  | lexical detail position =>
      "syntax error at offset " ++ toString position ++ ": " ++ detail
  | unexpected found position =>
      "syntax error at offset " ++ toString position ++ ": unexpected " ++ found
  | unclosed position => "missing ')' at offset " ++ toString position

instance : ToString Fault :=
  ⟨message⟩

end Fault
end Abacus
