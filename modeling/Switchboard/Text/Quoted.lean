import Switchboard.Text.Extending
import Switchboard.Text.Hexadecimal
import Switchboard.Text.Hidden

/-!
# Quoted text

A text between double quotes on one line. Quotes, backslashes and the usual control characters
have short escapes; hidden and extending characters are written by their number.
-/

namespace Switchboard.Text

/-- One character inside quotes. -/
def quotedChar (c : Char) : List Char :=
  match c with
  | '\x00' => ['\\', '0']
  | '\t' => ['\\', 't']
  | '\r' => ['\\', 'r']
  | '\n' => ['\\', 'n']
  | '"' => ['\\', '"']
  | '\\' => ['\\', '\\']
  | _ =>
    if isHidden c || isExtending c then ['\\', 'u', '\x7b'] ++ lowerHex c.toNat ++ ['\x7d']
    else [c]

/-- The text between double quotes. -/
def quoted (s : String) : String :=
  String.ofList ('"' :: s.toList.flatMap quotedChar ++ ['"'])

end Switchboard.Text
