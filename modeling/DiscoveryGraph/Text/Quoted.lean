import DiscoveryGraph.Text.Unprintable

/-!
# Quoted text

The form in which messages and structural listings show a text that comes from outside: between
double quotes, with escapes for quotes, backslashes and everything that would not be visible.
-/

namespace DiscoveryGraph.Text

/-- A character by its number, in lowercase hexadecimal. -/
def numbered (c : Char) : List Char :=
  "\\u\x7b".toList ++ Nat.toDigits 16 c.toNat ++ ['\x7d']

/-- A character as it stands in quoted text. -/
def escaped (c : Char) : List Char :=
  if c = '\x00' then ['\\', '0']
  else if c = '\t' then ['\\', 't']
  else if c = '\r' then ['\\', 'r']
  else if c = '\n' then ['\\', 'n']
  else if c = '"' then ['\\', '"']
  else if c = '\\' then ['\\', '\\']
  else if isUnprintable c then numbered c
  else [c]

/-- A text between quotes. -/
def quoted (s : String) : String :=
  String.ofList ('"' :: s.toList.flatMap escaped ++ ['"'])

end DiscoveryGraph.Text
