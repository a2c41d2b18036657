/-
# Sets in brackets

A set is written between brackets: characters, ranges with a dash, further sets, and two signs
`&&`, `--` or `~~` between parts to be combined. A closing bracket right after the opening one
stands for itself, as do dashes there, so no set is empty without an operation.
-/

import TableStore.LogFilter.Pattern.Escape

namespace TableStore.LogFilter.Pattern

/-- A set that is not closed yet. -/
structure OpenSet where
  negated : Bool
  /-- What the parts are to be combined with. -/
  pending : Option (SetOperation × CharSet)
  /-- The parts so far, the last one first. -/
  parts : List CharSet

namespace OpenSet

/-- The set with another part. -/
def add (set : OpenSet) (part : CharSet) : OpenSet :=
  { set with parts := part :: set.parts }

/-- What the set has in it so far. -/
def content (set : OpenSet) : CharSet :=
  let right := CharSet.ofParts set.parts.reverse
  match set.pending with
  | none => right
  | some (operation, left) => .operation operation left right

/-- The set before the second operand of an operation. -/
def combine (set : OpenSet) (operation : SetOperation) : OpenSet :=
  { set with pending := some (operation, set.content), parts := [] }

/-- The set when it is closed. -/
def close (set : OpenSet) : CharSet :=
  .bracketed set.negated set.content

/-- Read the start of a set, after its bracket. -/
def start (verbose : Bool) (text : List Char) : OpenSet × List Char :=
  let text := skip verbose text
  let (negated, text) :=
    match text with
    | '^' :: rest => (true, skip verbose rest)
    | _ => (false, text)
  let (dashes, text) := dashesFrom verbose false text
  let itself := fun (c : Char) => CharSet.literal ⟨c, false⟩
  match dashes, text with
  | 0, ']' :: rest => (⟨negated, none, [itself ']']⟩, skip verbose rest)
  | _, _ => (⟨negated, none, List.replicate dashes (itself '-')⟩, text)

end OpenSet

/-- The names that sets can have. -/
def setNames : List String :=
  ["alnum", "alpha", "ascii", "blank", "cntrl", "digit", "graph", "lower", "print", "punct",
    "space", "upper", "word", "xdigit"]

/-- Read a set by its name between colons, after its bracket. A caret negates it. -/
def readNamed : List Char → Option (CharSet × List Char)
  | ':' :: text =>
      let negated := text.head? = some '^'
      let text := if negated then text.drop 1 else text
      let name := text.takeWhile fun c => c ≠ ':'
      match text.dropWhile fun c => c ≠ ':' with
      | ':' :: ']' :: rest =>
          if setNames.contains (String.ofList name) then some (.named negated, rest) else none
      | _ => none
  | _ => none

/-- Read a character or an escape. -/
def readItem (verbose : Bool) : List Char → Option (Item × List Char)
  | [] => none
  | '\\' :: rest => readEscape verbose rest
  | c :: rest => some (.ofChar c, rest)

/-- Read a part of a set, which is a range if a dash follows that is neither the last character of
the set nor the first of two. -/
def readPart (verbose : Bool) (text : List Char) : Option (CharSet × List Char) := do
  let (first, rest) ← readItem verbose text
  let rest := skip verbose rest
  let isRange :=
    match rest with
    | '-' :: ahead =>
        afterDash? verbose ahead ≠ some ']' && afterDash? verbose ahead ≠ some '-'
    | _ => false
  if isRange then
    let (last, rest) ← readItem verbose (skip verbose (rest.drop 1))
    let low ← first.bound?
    let high ← last.bound?
    if low.char ≤ high.char then some (.range low high, rest) else none
  else
    let part ← first.member?
    some (part, rest)

/-- Read on in a set that lies inside others, the innermost of them first. -/
def readSetFrom (verbose : Bool) : (fuel : Nat) → (set : OpenSet) → (outer : List OpenSet) →
    List Char → Option (CharSet × List Char)
  | 0, _, _, _ => none
  | fuel + 1, set, outer, text =>
      match skip verbose text with
      | [] => none
      | '[' :: rest =>
          match readNamed rest with
          | some (named, rest) => readSetFrom verbose fuel (set.add named) outer rest
          | none =>
              let (inner, rest) := OpenSet.start verbose rest
              readSetFrom verbose fuel inner (set :: outer) rest
      | ']' :: rest =>
          match outer with
          | [] => some (set.close, rest)
          | parent :: outer => readSetFrom verbose fuel (parent.add set.close) outer rest
      | '&' :: '&' :: rest => readSetFrom verbose fuel (set.combine .intersection) outer rest
      | '-' :: '-' :: rest => readSetFrom verbose fuel (set.combine .difference) outer rest
      | '~' :: '~' :: rest =>
          readSetFrom verbose fuel (set.combine .symmetricDifference) outer rest
      | text => do
          let (part, rest) ← readPart verbose text
          readSetFrom verbose fuel (set.add part) outer rest

/-- Read a set after its bracket. -/
def readSet (verbose : Bool) (text : List Char) : Option (CharSet × List Char) :=
  let (set, rest) := OpenSet.start verbose text
  readSetFrom verbose (rest.length + 1) set [] rest

end TableStore.LogFilter.Pattern
