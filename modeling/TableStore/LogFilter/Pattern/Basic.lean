/-
# Regular expressions

The shape of a regular expression: characters, sets of characters in brackets, groups with flags,
repetitions and alternatives. What a repetition repeats and how often is kept apart only as far as
it matters for the question whether an expression can be used at all. `fits` says that nothing is
nested too deep.
-/

namespace TableStore.LogFilter.Pattern

/-- A character that stands for itself. -/
structure Literal where
  char : Char
  /-- Whether it is written as a byte, by two hexadecimal digits. -/
  isByte : Bool
  deriving DecidableEq, Repr

/-- The letters that turn flags on and, after a minus sign, off. No letter comes twice. -/
abbrev FlagChange :=
  List Char

/-- What a change says about a flag, if anything. -/
def FlagChange.value? (letter : Char) (change : FlagChange) : Option Bool :=
  if (change.takeWhile fun c => c ≠ '-').contains letter then some true
  else if change.contains letter then some false
  else none

/-- Ways to combine two sets of characters. -/
inductive SetOperation where
  | intersection
  | difference
  | symmetricDifference
  deriving DecidableEq, Repr

/-- A set of characters. -/
inductive CharSet where
  | literal (char : Literal)
  | range (low high : Literal)
  /-- A set with a name between colons, such as that of the letters. -/
  | named (negated : Bool)
  /-- The digits, the blanks or the characters of words, by a letter after a backslash. -/
  | shorthand (negated : Bool)
  | bracketed (negated : Bool) (content : CharSet)
  | union (parts : List CharSet)
  | operation (kind : SetOperation) (left right : CharSet)

/-- A regular expression. -/
inductive Expression where
  /-- Flags for what follows in the same group. -/
  | flags (change : FlagChange)
  | literal (char : Literal)
  /-- Any character, but perhaps the end of a line. -/
  | any
  /-- The start or the end of a line or of the text. -/
  | edge
  /-- The start or the end of a word, or where neither is. -/
  | wordEdge
  | shorthand (negated : Bool)
  | set (content : CharSet)
  | repetition (repeated : Expression)
  | group (change : FlagChange) (content : Expression)
  | sequence (parts : List Expression)
  | alternatives (parts : List Expression)

/-- The set of all that is in one of some parts. -/
def CharSet.ofParts : List CharSet → CharSet
  | [part] => part
  | parts => .union parts

/-- Parts one after the other. -/
def Expression.ofParts : List Expression → Expression
  | [part] => part
  | parts => .sequence parts

mutual

/-- Whether at most so many brackets, unions and operations of a set lie inside each other. -/
def CharSet.fits : (limit : Nat) → CharSet → Bool
  | limit + 1, .bracketed _ content => content.fits limit
  | limit + 1, .operation _ left right => left.fits limit && right.fits limit
  | limit + 1, .union parts => CharSet.allFit limit parts
  | 0, .union [] => true
  | 0, .bracketed _ _ => false
  | 0, .operation _ _ _ => false
  | 0, .union _ => false
  | _, _ => true

/-- Whether all of some sets fit. -/
def CharSet.allFit : (limit : Nat) → List CharSet → Bool
  | _, [] => true
  | limit, part :: rest => part.fits limit && CharSet.allFit limit rest

end

mutual

/-- Whether at most so many groups, repetitions, sequences, alternatives and sets of an expression
lie inside each other. -/
def Expression.fits : (limit : Nat) → Expression → Bool
  | limit + 1, .repetition repeated => repeated.fits limit
  | limit + 1, .group _ content => content.fits limit
  | limit + 1, .sequence parts => Expression.allFit limit parts
  | limit + 1, .alternatives parts => Expression.allFit limit parts
  | limit, .set content => content.fits limit
  | 0, .sequence [] => true
  | 0, .repetition _ => false
  | 0, .group _ _ => false
  | 0, .sequence _ => false
  | 0, .alternatives _ => false
  | _, _ => true

/-- Whether all of some expressions fit. -/
def Expression.allFit : (limit : Nat) → List Expression → Bool
  | _, [] => true
  | limit, part :: rest => part.fits limit && Expression.allFit limit rest

end

end TableStore.LogFilter.Pattern
