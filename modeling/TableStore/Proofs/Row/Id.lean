/-
# Names of rows

One row has one text and one file name: reading a text gives an identifier exactly if the text is
the one that the identifier is written as, and reading a file name does so likewise. So neither a
missing nor a superfluous zero, nor a number beyond a word, ever stands for a row.
-/

import TableStore.Row.Id

namespace TableStore

namespace FileName

/-- A file name has a stem exactly if it is the name made of that stem. -/
theorem stem?_eq_some_iff {name stem : String} : stem? name = some stem ↔ name = ofStem stem := by
  constructor
  · intro found
    simp only [stem?] at found
    split at found
    · next whole =>
        rw [← Option.some.inj found, ofStem, String.toList_ofList, whole, String.ofList_toList]
    · exact absurd found (by simp)
  · rintro rfl
    simp [stem?, ofStem]

/-- The stem of the name made of a stem. -/
@[simp]
theorem stem?_ofStem (stem : String) : stem? (ofStem stem) = some stem :=
  stem?_eq_some_iff.mpr rfl

/-- Different stems make different names. -/
theorem ofStem_injective {first second : String} (same : ofStem first = ofStem second) :
    first = second := by
  have stems : stem? (ofStem first) = stem? (ofStem second) := congrArg stem? same
  simpa using stems

end FileName

namespace RowId

/-- An identifier is written with decimal digits only. -/
theorem isDigit_of_mem_digits {id : RowId} {c : Char} (member : c ∈ id.digits) :
    c.isDigit = true := by
  rcases List.mem_append.mp member with padding | digit
  · rw [List.eq_of_mem_replicate padding]
    decide
  · exact Nat.isDigit_of_mem_toDigits (by decide) (by decide) digit

/-- The digits of an identifier count up to its number. -/
theorem ofDigitChars_digits (id : RowId) : Nat.ofDigitChars 10 id.digits 0 = id.value.toNat := by
  rw [digits, Nat.ofDigitChars_append, Nat.ofDigitChars_replicate_zero, Nat.mul_zero,
    Nat.ofDigitChars_ten_toDigits]

/-- A text is read as an identifier exactly if the identifier is written so. -/
theorem ofText?_eq_some_iff {text : String} {id : RowId} :
    ofText? text = some id ↔ text = id.toText := by
  constructor
  · intro found
    simp only [ofText?] at found
    split at found
    · next canonical =>
        rw [← Option.some.inj found, toText, canonical.2.2, String.ofList_toList]
    · exact absurd found (by simp)
  · rintro rfl
    have word : id.value.toNat < UInt64.size := id.value.toNat_lt
    simp only [ofText?, toText, String.toList_ofList, ofDigitChars_digits, UInt64.ofNat_toNat, word,
      List.all_eq_true.mpr fun c member => isDigit_of_mem_digits member, and_self, if_true]

/-- The text of an identifier reads back. -/
@[simp]
theorem ofText?_toText (id : RowId) : ofText? id.toText = some id :=
  ofText?_eq_some_iff.mpr rfl

/-- A name is that of a row file exactly if the row's file is called so. -/
theorem ofFileName?_eq_some_iff {name : String} {id : RowId} :
    ofFileName? name = some id ↔ name = id.fileName := by
  rw [ofFileName?, Option.bind_eq_some_iff]
  constructor
  · rintro ⟨stem, named, read⟩
    rw [FileName.stem?_eq_some_iff.mp named, ofText?_eq_some_iff.mp read, fileName]
  · rintro rfl
    exact ⟨id.toText, FileName.stem?_ofStem _, ofText?_toText id⟩

/-- The name of the file of a row reads back. -/
@[simp]
theorem ofFileName?_fileName (id : RowId) : ofFileName? id.fileName = some id :=
  ofFileName?_eq_some_iff.mpr rfl

/-- Different rows have different files. -/
theorem fileName_injective {first second : RowId} (same : first.fileName = second.fileName) :
    first = second := by
  have read : ofFileName? first.fileName = ofFileName? second.fileName := congrArg ofFileName? same
  simpa using read

end RowId

end TableStore
