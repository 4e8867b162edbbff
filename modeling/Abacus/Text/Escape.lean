/-
How text is shown inside a message.  A text between double quotes keeps its single ones, and
a character alone has both escaped.
-/

import Abacus.Unicode.ExtendingMark
import Abacus.Unicode.OtherOrSeparator
import Abacus.Unicode.DefaultIgnorable

namespace Abacus.Text

def isShown (character : Char) : Bool :=
  (' ' ≤ character && character ≤ '~') ||
    !(Unicode.isOtherOrSeparator character || Unicode.isDefaultIgnorable character ||
      Unicode.isExtendingMark character)

def codePoint (character : Char) : List Char :=
  ['\\', 'u', '\x7b'] ++ Nat.toDigits 16 character.toNat ++ ['\x7d']

/-- The marks are the quotation marks to escape. -/
def escape (marks : List Char) (character : Char) : List Char :=
  match character with
  | '\x00' => ['\\', '0']
  | '\t' => ['\\', 't']
  | '\r' => ['\\', 'r']
  | '\n' => ['\\', 'n']
  | '\\' => ['\\', '\\']
  | _ =>
      if character ∈ marks then ['\\', character]
      else if isShown character then [character]
      else codePoint character

def quoted (text : String) : String :=
  String.ofList ('\x22' :: text.toList.flatMap (escape ['\x22']) ++ ['\x22'])

def shownAlone (character : Char) : String :=
  String.ofList (escape ['\x22', '\x27'] character)

end Abacus.Text
