import Referee.Text.Invisible

/-!
# Quoted text

A diagnostic shows a text between double quotes. Quotes and backslashes are escaped, four control
characters have a letter, and the other characters without a form of their own are shown by their
number in hexadecimal.
-/

namespace Referee.Text

/-- `\\u` and the number of a character in braces. -/
def numberEscape (c : Char) : List Char :=
  ['\\', 'u', '\x7b'] ++ Nat.toDigits 16 c.toNat ++ ['\x7d']

def quotedChar (c : Char) : List Char :=
  match c with
  | '\x00' => ['\\', '0']
  | '\t' => ['\\', 't']
  | '\n' => ['\\', 'n']
  | '\r' => ['\\', 'r']
  | '"' => ['\\', '"']
  | '\\' => ['\\', '\\']
  | c => if isInvisible c then numberEscape c else [c]

def quoted (s : String) : String := String.ofList ('"' :: s.toList.flatMap quotedChar ++ ['"'])

end Referee.Text
