/-
# Failures of tables

Why an operation on a table failed. A failure is fatal when what is stored contradicts itself;
after any other failure the table can go on being used.
-/

import TableStore.Corruption
import TableStore.Files.Failure
import TableStore.Row.Id

namespace TableStore

/-- How bad a failure is. -/
inductive Severity where
  /-- The operation failed and the table is still usable. -/
  | error
  /-- What is stored violates an invariant. -/
  | fatal
  deriving DecidableEq, Repr

/-- The name of a severity. -/
def Severity.name : Severity → String
  | .error => "ERROR"
  | .fatal => "FATAL"

/-- Why an operation on a table failed. -/
inductive TableError where
  | notFound (id : RowId)
  | invalidRowId (text : String)
  | invalidTableName (name : String)
  | invalidColumn (column : String)
  | invalidValue (column : String)
  | idSpaceExhausted
  | indexMissing (column : String)
  | corrupted (path : String) (flaw : Corruption)
  | indexInconsistent (column : String) (id : RowId)
  | files (error : FileError)
  deriving DecidableEq, Repr

namespace TableError

/-- The stable code of a failure. -/
def code : TableError → String
  | .notFound _ => "ROWQUERY_ROW_NOT_FOUND"
  | .invalidRowId _ => "ROWQUERY_INVALID_ROW_ID"
  | .invalidTableName _ => "ROWQUERY_INVALID_TABLE_NAME"
  | .invalidColumn _ => "ROWQUERY_INVALID_COLUMN"
  | .invalidValue _ => "ROWQUERY_INVALID_VALUE"
  | .idSpaceExhausted => "ROWQUERY_ID_SPACE_EXHAUSTED"
  | .indexMissing _ => "ROWQUERY_INDEX_MISSING"
  | .corrupted _ _ => "ROWQUERY_DATA_CORRUPTION"
  | .indexInconsistent _ _ => "ROWQUERY_INDEX_INCONSISTENCY"
  | .files error => error.code

/-- How bad a failure is. -/
def severity : TableError → Severity
  | .corrupted _ _ => .fatal
  | .indexInconsistent _ _ => .fatal
  | _ => .error

/-- Whether the failure is that a row does not exist. A missing file is something else. -/
def isNotFound : TableError → Bool
  | .notFound _ => true
  | _ => false

/-- The text of a failure. -/
def message (wording : Wording) : TableError → String
  | .notFound id => "Row not found: " ++ id.toText
  | .invalidRowId text => "Invalid row id: " ++ Text.quoted text
  | .invalidTableName name => "Invalid table name: " ++ Text.quoted name
  | .invalidColumn column => "Invalid column name: " ++ Text.quoted column
  | .invalidValue column => "Column " ++ Text.quoted column ++ " holds a non-scalar value"
  | .idSpaceExhausted => "Row id space exhausted"
  | .indexMissing column => "No index table for column " ++ Text.quoted column
  | .corrupted path flaw => "Corrupted file " ++ path ++ ": " ++ flaw.message wording.malformed
  | .indexInconsistent column id =>
      "Index on column " ++ Text.quoted column ++ " disagrees with row " ++ id.toText
  | .files error => error.message wording

end TableError

/-- Read the text of an identifier, with the failure that names it otherwise. -/
def RowId.parse (text : String) : Except TableError RowId :=
  match RowId.ofText? text with
  | some id => .ok id
  | none => .error (.invalidRowId text)

end TableStore
