/-
# Damaged files

Why the contents of a file are not what the store would have written there.
-/

import TableStore.Text.Quoted

namespace TableStore

/-- What is wrong with the contents of a file. -/
inductive Corruption where
  /-- The file is not JSON, or not JSON of the expected shape. -/
  | malformed
  /-- A row file holds a value other than an object. -/
  | notAnObject
  /-- A column of a row holds an array or an object. -/
  | compositeValue (column : String)
  /-- A key of an index is an array or an object. -/
  | compositeKey
  deriving DecidableEq, Repr

namespace Corruption

/-- The text of a flaw; `malformed` says what the reader has to say about text it cannot read. -/
def message (malformedText : String) : Corruption → String
  | .malformed => malformedText
  | .notAnObject => "row file is not a JSON object"
  | .compositeValue column => "Column " ++ Text.quoted column ++ " holds a non-scalar value"
  | .compositeKey => "non-scalar index key"

end Corruption

end TableStore
