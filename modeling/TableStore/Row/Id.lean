/-
# Row identifiers

A row is named by a 64-bit number. Its text is decimal, padded with zeros to four digits, and
only that text reads back: one row has one name, and one file.
-/

import TableStore.FileName

namespace TableStore

/-- The number that names a row. -/
structure RowId where
  value : UInt64
  deriving DecidableEq, Repr

namespace RowId

/-- Identifiers are ordered by their numbers. -/
instance : Ord RowId :=
  ⟨compareOn RowId.value⟩

instance : Std.TransOrd RowId :=
  inferInstanceAs (Std.TransCmp (compareOn RowId.value))

instance : Std.LawfulEqOrd RowId where
  eq_of_compare {first second} equal := by
    have values : first.value = second.value := Std.LawfulEqOrd.eq_of_compare equal
    cases first; cases second; simp_all

/-- The identifier of the first row of a table. -/
def first : RowId :=
  ⟨0⟩

/-- The identifier after this one, unless this is the last. -/
def next? (id : RowId) : Option RowId :=
  if id.value.toNat + 1 < UInt64.size then some ⟨id.value + 1⟩ else none

/-- The least number of digits in the text of an identifier. -/
def width : Nat :=
  4

/-- The digits of an identifier. -/
def digits (id : RowId) : List Char :=
  let digits := Nat.toDigits 10 id.value.toNat
  List.replicate (width - digits.length) '0' ++ digits

/-- The text of an identifier. -/
def toText (id : RowId) : String :=
  String.ofList id.digits

/-- Read the text of an identifier. A number with missing or superfluous zeros, or one too large
for a word, is no identifier. -/
def ofText? (text : String) : Option RowId :=
  let letters := text.toList
  let number := Nat.ofDigitChars 10 letters 0
  let id : RowId := ⟨UInt64.ofNat number⟩
  if letters.all Char.isDigit ∧ number < UInt64.size ∧ id.digits = letters then some id else none

/-- The name of the file of a row. -/
def fileName (id : RowId) : String :=
  FileName.ofStem id.toText

/-- Read the name of the file of a row. -/
def ofFileName? (name : String) : Option RowId :=
  (FileName.stem? name).bind ofText?

end RowId

end TableStore
