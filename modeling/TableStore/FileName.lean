/-
# Names of stored files

Rows and indexes are kept in files whose names are a stem and one fixed ending. A name can be
used as one segment of a path when it neither is a directory shorthand nor holds a separator.
-/

namespace TableStore.FileName

/-- The ending of the name of every stored file. -/
def ending : List Char :=
  ['.', 'j', 's', 'o', 'n']

/-- The name of the file with a given stem. -/
def ofStem (stem : String) : String :=
  String.ofList (stem.toList ++ ending)

/-- The stem of a file name, if it has the ending. -/
def stem? (name : String) : Option String :=
  let letters := name.toList
  let stem := letters.take (letters.length - ending.length)
  if stem ++ ending = letters then some (String.ofList stem) else none

/-- Whether a name can stand as one segment of a path. -/
def isSegment (name : String) : Bool :=
  name ≠ "" && name ≠ "." && name ≠ ".." &&
    name.toList.all fun c => c ≠ '/' && c ≠ '\\' && c ≠ '\x00'

end TableStore.FileName
