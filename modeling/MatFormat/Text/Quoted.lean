/-
This file writes a text in double quotes on one line. A backslash stands before a quote and
before a backslash, five controls have a letter of their own, and every other unprintable
character is shown by its code in hexadecimal.
-/

import MatFormat.Text.Unprintable

namespace MatFormat

/-- The hexadecimal digits of a number, lower case and without leading zeros. -/
def hexDigits (value : Nat) : List Char :=
  Nat.toDigits 16 value

/-- One character of a quoted text. -/
def quoteChar (char : Char) : List Char :=
  if char = '"' then ['\\', '"']
  else if char = '\\' then ['\\', '\\']
  else if char = '\n' then ['\\', 'n']
  else if char = '\r' then ['\\', 'r']
  else if char = '\t' then ['\\', 't']
  else if char.toNat = 0 then ['\\', '0']
  else if isUnprintable char then
    ['\\', 'u', '\x7b'] ++ hexDigits char.toNat ++ ['\x7d']
  else [char]

/-- A text in double quotes. -/
def quote (text : String) : String :=
  "\"" ++ String.ofList (text.toList.flatMap quoteChar) ++ "\""

end MatFormat
