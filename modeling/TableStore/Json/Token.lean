/-
# The words of JSON

A text is cut into tokens by a machine that reads one character at a time. A string or a numeral
may be well formed and yet have no value: an escape may name half of a surrogate pair, and a
numeral may overflow. Such tokens are kept, without a value, because a reader that passes over
them does not need one.
-/

import TableStore.Json.Basic

namespace TableStore.Json

/-- What stands between two quotes, piece by piece. -/
inductive Piece where
  /-- A character, written plainly or by a one-letter escape. -/
  | char (c : Char)
  /-- A UTF-16 code unit, written by its four hexadecimal digits. -/
  | unit (code : Nat)
  /-- A byte that belongs to no character. -/
  | damaged

namespace Piece

/-- The characters that pieces denote. A high surrogate needs the low one right after it. -/
def decode? : List Piece → Option (List Char)
  | [] => some []
  | .char c :: rest => (decode? rest).map (c :: ·)
  | .unit high :: .unit low :: rest =>
      if 0xD800 ≤ high ∧ high < 0xDC00 then
        if 0xDC00 ≤ low ∧ low < 0xE000 then
          (decode? rest).map (Char.ofNat (0x10000 + (high - 0xD800) * 0x400 + (low - 0xDC00)) :: ·)
        else none
      else if 0xDC00 ≤ high ∧ high < 0xE000 then none
      else (decode? (.unit low :: rest)).map (Char.ofNat high :: ·)
  | .unit code :: rest =>
      if 0xD800 ≤ code ∧ code < 0xE000 then none else (decode? rest).map (Char.ofNat code :: ·)
  | .damaged :: _ => none

end Piece

/-- A word of JSON. -/
inductive Token where
  | openArray
  | closeArray
  | openObject
  | closeObject
  | comma
  | colon
  | null
  | bool (value : Bool)
  /-- A numeral, with its number unless it overflows. -/
  | number (value : Option Number)
  /-- A string, with its characters unless some piece denotes none. -/
  | string (value : Option String)

namespace Token

/-- The tokens of one character. -/
def punctuation? (c : Char) : Option Token :=
  if c = '[' then some .openArray
  else if c = ']' then some .closeArray
  else if c = '\x7b' then some .openObject
  else if c = '\x7d' then some .closeObject
  else if c = ',' then some .comma
  else if c = ':' then some .colon
  else none

/-- The characters that may stand between tokens. -/
def isBlank (c : Char) : Bool :=
  c = ' ' || c = '\t' || c = '\n' || c = '\r'

/-- Whether a character ends a bare word. -/
def endsWord (c : Char) : Bool :=
  isBlank c || c = '"' || (punctuation? c).isSome

/-- The token of a bare word: a name or a numeral. -/
def ofWord? (word : List Char) : Option Token :=
  if word = ['n', 'u', 'l', 'l'] then some .null
  else if word = ['t', 'r', 'u', 'e'] then some (.bool true)
  else if word = ['f', 'a', 'l', 's', 'e'] then some (.bool false)
  else (Numeral.read? word).map fun numeral => .number numeral.number?

/-- The value of a hexadecimal digit. -/
def hexDigit? (c : Char) : Option Nat :=
  if '0' ≤ c ∧ c ≤ '9' then some (c.toNat - '0'.toNat)
  else if 'a' ≤ c ∧ c ≤ 'f' then some (c.toNat - 'a'.toNat + 10)
  else if 'A' ≤ c ∧ c ≤ 'F' then some (c.toNat - 'A'.toNat + 10)
  else none

/-- What a letter after a backslash stands for. -/
def escape? (c : Char) : Option Char :=
  if c = '"' ∨ c = '\\' ∨ c = '/' then some c
  else if c = 'b' then some '\x08'
  else if c = 'f' then some '\x0c'
  else if c = 'n' then some '\n'
  else if c = 'r' then some '\r'
  else if c = 't' then some '\t'
  else none

/-- Where the machine stands. Lists of what has been read are reversed. -/
inductive Mode where
  | between
  | word (read : List Char)
  | string (read : List Piece)
  /-- After a backslash. -/
  | escape (read : List Piece)
  /-- Inside the digits of a code unit, `missing + 1` of which are still to come. -/
  | unit (read : List Piece) (missing code : Nat)

/-- What a character does between tokens: the token it completes, if any, and the next mode. -/
def start (c : Char) : List Token × Mode :=
  if isBlank c then ([], .between)
  else if c = '"' then ([], .string [])
  else
    match punctuation? c with
    | some token => ([token], .between)
    | none => ([], .word [c])

/-- One character: the tokens that it completes and the mode after it. -/
def step : Mode → Option Char → Option (List Token × Mode)
  | .between, some c => some (start c)
  | .word read, some c =>
      if endsWord c then do
        let token ← ofWord? read.reverse
        let (tokens, mode) := start c
        return (token :: tokens, mode)
      else some ([], .word (c :: read))
  | .string read, some c =>
      if c = '"' then
        some ([.string ((Piece.decode? read.reverse).map String.ofList)], .between)
      else if c = '\\' then some ([], .escape read)
      else if c.toNat < 0x20 then none
      else some ([], .string (.char c :: read))
  | .string read, none => some ([], .string (.damaged :: read))
  | .escape read, some c =>
      if c = 'u' then some ([], .unit read 3 0)
      else (escape? c).map fun escaped => ([], .string (.char escaped :: read))
  | .unit read missing code, some c => do
      let digit ← hexDigit? c
      let code := 16 * code + digit
      match missing with
      | 0 => return ([], .string (.unit code :: read))
      | missing + 1 => return ([], .unit read missing code)
  | _, none => none

/-- The tokens read so far, last first, and the mode. -/
abbrev Progress :=
  List Token × Mode

/-- One character of a text. -/
def advance (progress : Progress) (c : Option Char) : Option Progress := do
  let (tokens, mode) ← step progress.2 c
  return (tokens.reverse ++ progress.1, mode)

/-- The tokens of a whole text, which must not end inside a string. -/
def finish? : Progress → Option (List Token)
  | (read, .between) => some read.reverse
  | (read, .word letters) => do
      let token ← ofWord? letters.reverse
      return (token :: read).reverse
  | _ => none

/-- Cut a text into tokens. -/
def scan? (text : List (Option Char)) : Option (List Token) :=
  (text.foldlM advance ([], .between)).bind finish?

end Token

end TableStore.Json
