/-
Text in double quotes, as messages show file names and as debug output shows values.

A quote and a backslash stand behind a backslash, tab, line feed, carriage return and NUL have short forms, and a hidden
character is written as its number in braces; a single quote stands as it is.
-/
import TableStore.Text.Hidden

namespace TableStore.Text

/-- a number in lower case hexadecimal digits -/
def hex (n : Nat) : List Char := Nat.toDigits 16 n

def escaped (c : Char) : List Char :=
  if c = '\x22' then ['\\', '\x22']
  else if c = '\\' then ['\\', '\\']
  else if c = '\t' then ['\\', 't']
  else if c = '\n' then ['\\', 'n']
  else if c = '\r' then ['\\', 'r']
  else if c = '\x00' then ['\\', '0']
  else if isHidden c then ['\\', 'u', '\x7b'] ++ hex c.toNat ++ ['\x7d']
  else [c]

def quoted (s : String) : String :=
  String.ofList ('\x22' :: s.toList.flatMap escaped ++ ['\x22'])

end TableStore.Text
