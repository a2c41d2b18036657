/-
# Escapes

What a backslash makes of the characters behind it: a literal, a shorthand for a set, or a place
in the text.
-/

import TableStore.Json.Token
import TableStore.LogFilter.Pattern.Basic
import TableStore.LogFilter.Pattern.Blank

namespace TableStore.LogFilter.Pattern

/-- What stands at one place of an expression without brackets and parentheses. -/
inductive Item where
  | literal (char : Literal)
  | any
  | shorthand (negated : Bool)
  | edge
  | wordEdge
  deriving DecidableEq, Repr

namespace Item

/-- An item as an expression. -/
def expression : Item → Expression
  | .literal char => .literal char
  | .any => .any
  | .shorthand negated => .shorthand negated
  | .edge => .edge
  | .wordEdge => .wordEdge

/-- An item as a part of a set, if it is one. -/
def member? : Item → Option CharSet
  | .literal char => some (.literal char)
  | .shorthand negated => some (.shorthand negated)
  | _ => none

/-- An item as an end of a range, if it is one. -/
def bound? : Item → Option Literal
  | .literal char => some char
  | _ => none

/-- The item of a character as it is. -/
def ofChar (c : Char) : Item :=
  .literal ⟨c, false⟩

end Item

/-- The value of so many hexadecimal digits, and what follows them. -/
def readDigits (verbose : Bool) : (count value : Nat) → List Char → Option (Nat × List Char)
  | 0, value, text => some (value, text)
  | _ + 1, _, [] => none
  | count + 1, value, c :: rest => do
      let digit ← Json.Token.hexDigit? c
      readDigits verbose count (16 * value + digit) (skip verbose rest)

/-- The character that so many hexadecimal digits name. -/
def readCode (verbose : Bool) (count : Nat) (text : List Char) : Option (Item × List Char) := do
  let (code, rest) ← readDigits verbose count 0 (skip verbose text)
  if code.isValidChar then some (.literal ⟨Char.ofNat code, count = 2⟩, rest) else none

/-- The control character that a letter names. -/
def controlCharacter? (letter : Char) : Option Char :=
  if letter = 'a' then some '\x07'
  else if letter = 't' then some '\t'
  else if letter = 'n' then some '\n'
  else if letter = 'v' then some '\x0b'
  else if letter = 'f' then some '\x0c'
  else if letter = 'r' then some '\r'
  else none

/-- Whether a backslash makes a character stand for itself. -/
def isEscapable (c : Char) : Bool :=
  c.toNat < 0x80 && !c.isAlphanum && c ≠ '<' && c ≠ '>'

/-- The item of one character after a backslash. -/
def escaped? (c : Char) : Option Item :=
  if isEscapable c then some (.ofChar c)
  else if c = 'd' ∨ c = 's' ∨ c = 'w' then some (.shorthand false)
  else if c = 'D' ∨ c = 'S' ∨ c = 'W' then some (.shorthand true)
  else if c = 'A' ∨ c = 'z' then some .edge
  else if c = 'b' ∨ c = 'B' ∨ c = '<' ∨ c = '>' then some .wordEdge
  else (controlCharacter? c).map Item.ofChar

/-- The item after a backslash, and what follows it. -/
def readEscape (verbose : Bool) : List Char → Option (Item × List Char)
  | [] => none
  | c :: rest =>
      if c = 'x' then readCode verbose 2 rest
      else if c = 'u' then readCode verbose 4 rest
      else if c = 'U' then readCode verbose 8 rest
      else (escaped? c).map fun item => (item, rest)

end TableStore.LogFilter.Pattern
