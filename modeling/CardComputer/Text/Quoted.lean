import CardComputer.Text.Hex
import CardComputer.Text.Hidden

/-!
# Quoted text in messages

`Text.quoted` shows a text between double quotes so that it fits on one line: quotes, backslashes
and control characters are escaped, and so is every character with no picture of its own.
-/

namespace CardComputer.Text

/-- One character of a quoted text. -/
def quotedChar (c : Char) : List Char :=
  if c = '"' then ['\\', '"']
  else if c = '\\' then ['\\', '\\']
  else if c = '\n' then ['\\', 'n']
  else if c = '\r' then ['\\', 'r']
  else if c = '\t' then ['\\', 't']
  else if c.toNat = 0 then ['\\', '0']
  -- Braces around the digits mark the end of their number.
  else if isHidden c then ['\\', 'u', '\x7b'] ++ Hex.digits 1 c.toNat ++ ['\x7d']
  else [c]

/-- A text between double quotes, on one line. -/
def quoted (s : String) : String :=
  String.ofList ('"' :: s.toList.flatMap quotedChar ++ ['"'])

end CardComputer.Text
