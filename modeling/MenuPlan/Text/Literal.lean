/-
# Strings as literals

How a string is shown inside a message: between double quotes, with escapes for quotes, backslashes
and the common controls, and with the code point in braces for every other character that could not
be recognised.
-/

import MenuPlan.Text.Concealed

namespace MenuPlan.Text

/-- How a character is shown between quotes. -/
def literalChar (c : Char) : List Char :=
  if c = '\x00' then ['\\', '0']
  else if c = '\t' then ['\\', 't']
  else if c = '\n' then ['\\', 'n']
  else if c = '\r' then ['\\', 'r']
  else if c = '"' then ['\\', '"']
  else if c = '\\' then ['\\', '\\']
  else if isConcealed c then ['\\', 'u', '\x7b'] ++ Nat.toDigits 16 c.toNat ++ ['\x7d']
  else [c]

/-- A string as a literal. -/
def literal (s : String) : String :=
  String.ofList ('"' :: (s.toList.flatMap literalChar ++ ['"']))

end MenuPlan.Text
