/-
# JSON text

A value is written either compactly, without any blank, or laid out with one member or item per
line, indented by two blanks for each level.
-/

import TableStore.Json.Basic

namespace TableStore.Json

/-- A character inside a string. Only the quote, the backslash and the control characters are
escaped, so a string never holds a raw line break. -/
def escapedChar (c : Char) : List Char :=
  if c = '"' then ['\\', '"']
  else if c = '\\' then ['\\', '\\']
  else if c = '\x08' then ['\\', 'b']
  else if c = '\t' then ['\\', 't']
  else if c = '\n' then ['\\', 'n']
  else if c = '\x0c' then ['\\', 'f']
  else if c = '\r' then ['\\', 'r']
  else if c.toNat < 0x20 then
    ['\\', 'u', '0', '0', Nat.digitChar (c.toNat / 16), Nat.digitChar (c.toNat % 16)]
  else [c]

/-- A string between its quotes. -/
def writeString (value : String) : List Char :=
  '"' :: value.toList.flatMap escapedChar ++ ['"']

/-- A truth value. -/
def writeBool (value : Bool) : List Char :=
  if value then ['t', 'r', 'u', 'e'] else ['f', 'a', 'l', 's', 'e']

mutual

/-- The compact text of a value. -/
def compact : Json → List Char
  | .null => ['n', 'u', 'l', 'l']
  | .bool value => writeBool value
  | .number value => value.write
  | .string value => writeString value
  | .array items => '[' :: compactItems items ++ [']']
  | .object members => '\x7b' :: compactMembers members ++ ['\x7d']

/-- Items separated by commas. -/
def compactItems : List Json → List Char
  | [] => []
  | [item] => compact item
  | item :: rest => compact item ++ ',' :: compactItems rest

/-- Members separated by commas. -/
def compactMembers : List (String × Json) → List Char
  | [] => []
  | [(key, value)] => writeString key ++ ':' :: compact value
  | (key, value) :: rest => writeString key ++ ':' :: compact value ++ ',' :: compactMembers rest

end

/-- A line break and the indentation of a level. -/
def newline (level : Nat) : List Char :=
  '\n' :: List.replicate (2 * level) ' '

mutual

/-- The text of a value with every item and member on a line of its own. -/
def laidOut (level : Nat) : Json → List Char
  | .null => ['n', 'u', 'l', 'l']
  | .bool value => writeBool value
  | .number value => value.write
  | .string value => writeString value
  | .array [] => ['[', ']']
  | .array (item :: rest) =>
      '[' :: laidOutItems (level + 1) (item :: rest) ++ newline level ++ [']']
  | .object [] => ['\x7b', '\x7d']
  | .object (member :: rest) =>
      '\x7b' :: laidOutMembers (level + 1) (member :: rest) ++ newline level ++ ['\x7d']

/-- Items, each on its line, separated by commas. -/
def laidOutItems (level : Nat) : List Json → List Char
  | [] => []
  | [item] => newline level ++ laidOut level item
  | item :: rest => newline level ++ laidOut level item ++ ',' :: laidOutItems level rest

/-- Members, each on its line, separated by commas. -/
def laidOutMembers (level : Nat) : List (String × Json) → List Char
  | [] => []
  | [(key, value)] => newline level ++ writeString key ++ ':' :: ' ' :: laidOut level value
  | (key, value) :: rest =>
      newline level ++ writeString key ++ ':' :: ' ' :: laidOut level value ++
        ',' :: laidOutMembers level rest

end

/-- The compact text of a value as a string. -/
def toText (value : Json) : String :=
  String.ofList value.compact

end TableStore.Json
