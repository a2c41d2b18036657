/-
# Reading expressions

An expression is read from left to right, with the groups that are open kept aside. Braces are not
part of the notation, because they end the field that the expression is written in.
-/

import TableStore.LogFilter.Pattern.Bracket
import TableStore.Text.Alphanumeric

namespace TableStore.LogFilter.Pattern

/-- What has been read of an expression outside of the groups in it. -/
structure Level where
  /-- The alternatives that are complete, the last one first. -/
  branches : List Expression
  /-- The parts of the current alternative, the last one first. -/
  parts : List Expression

namespace Level

/-- A level with nothing on it. -/
def empty : Level where
  branches := []
  parts := []

/-- The level with another part. -/
def add (level : Level) (part : Expression) : Level :=
  { level with parts := part :: level.parts }

/-- The level at the start of another alternative. -/
def branch (level : Level) : Level where
  branches := Expression.ofParts level.parts.reverse :: level.branches
  parts := []

/-- All that is on the level. -/
def expression (level : Level) : Expression :=
  match level.branches with
  | [] => Expression.ofParts level.parts.reverse
  | _ => .alternatives level.branch.branches.reverse

/-- The level with its last part repeated. There has to be one, and flags cannot be repeated. -/
def repeat? (level : Level) : Option Level :=
  match level.parts with
  | [] => none
  | .flags _ :: _ => none
  | part :: rest => some { level with parts := .repetition part :: rest }

end Level

/-- A group that is not closed yet. -/
structure OpenGroup where
  change : FlagChange
  /-- The level that the group is on. -/
  level : Level
  /-- Whether blanks are passed over on that level. -/
  verbose : Bool

/-- Where the reader of an expression stands. -/
structure Reader where
  verbose : Bool
  /-- The names of groups so far. -/
  names : List (List Char)
  level : Level
  /-- The groups around the level, the innermost one first. -/
  groups : List OpenGroup

/-! ## The start of a group -/

/-- The letters of all flags. -/
def flagLetters : List Char :=
  ['i', 'm', 's', 'U', 'u', 'R', 'x']

/-- Whether letters, perhaps with a minus sign among them, are a change of flags. -/
def isFlagChange (change : List Char) : Bool :=
  (change.all fun c => c = '-' || flagLetters.contains c) && change.Nodup &&
    change.getLast? ≠ some '-'

/-- Whether a text can be the name of a group. -/
def isGroupName : List Char → Bool
  | [] => false
  | first :: rest =>
      (first = '_' || Text.isAlphabetic first) &&
        rest.all fun c => c = '_' || c = '.' || c = '[' || c = ']' || Text.isAlphanumeric c

namespace Reader

/-- The reader at the start of an expression. -/
def initial : Reader where
  verbose := false
  names := []
  level := .empty
  groups := []

/-- The reader after another part. -/
def add (reader : Reader) (part : Expression) : Reader :=
  { reader with level := reader.level.add part }

/-- The reader inside a new group. -/
def enter (reader : Reader) (change : FlagChange) : Reader :=
  { reader with
    verbose := (change.value? 'x').getD reader.verbose
    level := .empty
    groups := ⟨change, reader.level, reader.verbose⟩ :: reader.groups }

/-- Enter a group with a name, which comes before a closing angle bracket. No two groups have one
name. -/
def enterNamed (reader : Reader) (text : List Char) : Option (Reader × List Char) :=
  let name := text.takeWhile fun c => c ≠ '>'
  match text.dropWhile fun c => c ≠ '>' with
  | _ :: rest =>
      if isGroupName name && !reader.names.contains name then
        some ({ reader with names := name :: reader.names }.enter [], rest)
      else none
  | [] => none

/-- Enter a group with flags before a colon, or take flags before a closing parenthesis for what
follows. -/
def enterFlagged (reader : Reader) (text : List Char) : Option (Reader × List Char) :=
  let change : FlagChange := text.takeWhile fun c => c ≠ ':' && c ≠ ')'
  if !isFlagChange change then none
  else
    match text.dropWhile fun c => c ≠ ':' && c ≠ ')' with
    | ':' :: rest => some (reader.enter change, rest)
    | _ :: rest =>
        if change = [] then none
        else
          some
            ({ reader.add (.flags change) with
                verbose := (change.value? 'x').getD reader.verbose }, rest)
    | [] => none

/-- Read the start of a group, after its parenthesis. -/
def openGroup (reader : Reader) (text : List Char) : Option (Reader × List Char) :=
  match skip reader.verbose text with
  | '?' :: 'P' :: '<' :: rest => reader.enterNamed rest
  | '?' :: '<' :: rest => reader.enterNamed rest
  | '?' :: rest => reader.enterFlagged rest
  | text => some (reader.enter [], text)

/-- The reader after the end of a group. -/
def closeGroup? (reader : Reader) : Option Reader :=
  match reader.groups with
  | [] => none
  | group :: outer =>
      some
        { reader with
          verbose := group.verbose
          level := group.level.add (.group group.change reader.level.expression)
          groups := outer }

/-! ## The steps -/

/-- Read what starts with a character. -/
def step (reader : Reader) (c : Char) (rest : List Char) : Option (Reader × List Char) :=
  let item := fun (item : Item) => reader.add item.expression
  if c = '(' then reader.openGroup rest
  else if c = ')' then reader.closeGroup?.map fun reader => (reader, rest)
  else if c = '|' then some ({ reader with level := reader.level.branch }, rest)
  else if c = '[' then
    (readSet reader.verbose rest).map fun (set, rest) => (reader.add (.set set), rest)
  else if c = '*' ∨ c = '+' ∨ c = '?' then
    reader.level.repeat?.map fun level =>
      ({ reader with level }, if rest.head? = some '?' then rest.drop 1 else rest)
  else if c = '\x7b' then none
  else if c = '\\' then
    (readEscape reader.verbose rest).map fun (escaped, rest) => (item escaped, rest)
  else if c = '.' then some (item .any, rest)
  else if c = '^' ∨ c = '$' then some (item .edge, rest)
  else some (item (.ofChar c), rest)

/-- Read all of a text. Every step takes a character at least, so that many are enough. -/
def run : (fuel : Nat) → Reader → List Char → Option Reader
  | 0, _, _ => none
  | fuel + 1, reader, text =>
      match skip reader.verbose text with
      | [] => some reader
      | c :: rest => (reader.step c rest).bind fun (reader, rest) => run fuel reader rest

end Reader

/-- Read an expression. Every group has to be closed. -/
def read? (text : List Char) : Option Expression :=
  (Reader.initial.run (text.length + 1) text).bind fun reader =>
    if reader.groups.isEmpty then some reader.level.expression else none

end TableStore.LogFilter.Pattern
