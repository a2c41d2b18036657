/-
# Stretches of a text

Places in a text are counted in bytes of its UTF-8 form. A stretch between two places is a text
only if neither of them lies inside a character.
-/

namespace TableStore.Text

/-- How many bytes a text takes. -/
def byteCount (text : List Char) : Nat :=
  (String.ofList text).utf8ByteSize

/-- Split a text after so many bytes, unless that is inside a character or past the end. -/
def splitAt? : (bytes : Nat) → List Char → Option (List Char × List Char)
  | 0, text => some ([], text)
  | _ + 1, [] => none
  | bytes + 1, c :: rest =>
      if c.utf8Size ≤ bytes + 1 then
        (splitAt? (bytes + 1 - c.utf8Size) rest).map fun halves => (c :: halves.1, halves.2)
      else none

/-- The stretch of a text from one place to another. -/
def stretch? (start stop : Nat) (text : List Char) : Option (List Char) :=
  (splitAt? start text).bind fun halves =>
    (splitAt? (stop - start) halves.2).map Prod.fst

end TableStore.Text
