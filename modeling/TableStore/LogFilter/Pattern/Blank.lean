/-
# Blanks in verbose expressions

After the flag `x`, blanks and comments may stand between the characters of an expression. A
comment starts with a number sign and goes on to the end of the line.
-/

import TableStore.Text.WhiteSpace

namespace TableStore.LogFilter.Pattern

/-- A text without the blanks and comments at its start, from inside a comment or not. -/
def skipFrom : (inComment : Bool) → List Char → List Char
  | _, [] => []
  | true, c :: rest => skipFrom (c ≠ '\n') rest
  | false, c :: rest =>
      if Text.isWhiteSpace c then skipFrom false rest
      else if c = '#' then skipFrom true rest
      else c :: rest

/-- A text without what does not count at its start. -/
def skip (verbose : Bool) (text : List Char) : List Char :=
  if verbose then skipFrom false text else text

/-- The number of dashes at the start of a text, and what follows them and the blanks around
them. -/
def dashesFrom (verbose : Bool) : (inComment : Bool) → List Char → Nat × List Char
  | _, [] => (0, [])
  | true, c :: rest => dashesFrom verbose (c ≠ '\n') rest
  | false, c :: rest =>
      if c = '-' then
        let (count, rest) := dashesFrom verbose false rest
        (count + 1, rest)
      else if verbose && Text.isWhiteSpace c then dashesFrom verbose false rest
      else if verbose && c = '#' then dashesFrom verbose true rest
      else (0, c :: rest)

/-- The character that tells what a dash before a text means. Blanks are passed over, and so is
one number sign, but nothing of the comment behind it. If that leaves nothing, the first
character counts after all. -/
def afterDash? (verbose : Bool) (text : List Char) : Option Char :=
  if verbose then
    let ahead :=
      match text.dropWhile Text.isWhiteSpace with
      | '#' :: rest => rest.dropWhile Text.isWhiteSpace
      | rest => rest
    ahead.head? <|> text.head?
  else text.head?

end TableStore.LogFilter.Pattern
