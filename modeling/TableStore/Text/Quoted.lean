/-
# Quoted names

Messages show names, which may hold any character, between double quotes and on one line.
The quote, the backslash and the usual control characters have short escapes, and whatever
could not be seen on its own is written by its code point, so the quoted form is unambiguous.
-/

import TableStore.Text.Extender
import TableStore.Text.Unprintable

namespace TableStore.Text

/-- The escape that names a character by its code point in hexadecimal. -/
def codePointEscape (c : Char) : List Char :=
  '\\' :: 'u' :: '\x7b' :: Nat.toDigits 16 c.toNat ++ ['\x7d']

/-- One character as it appears between the quotes. -/
def quotedChar (c : Char) : List Char :=
  if c = '"' then ['\\', '"']
  else if c = '\\' then ['\\', '\\']
  else if c = '\n' then ['\\', 'n']
  else if c = '\r' then ['\\', 'r']
  else if c = '\t' then ['\\', 't']
  else if c = '\x00' then ['\\', '0']
  else if isExtender c || isUnprintable c then codePointEscape c
  else [c]

/-- A name between double quotes. -/
def quoted (name : String) : String :=
  String.ofList ('"' :: name.toList.flatMap quotedChar ++ ['"'])

end TableStore.Text
