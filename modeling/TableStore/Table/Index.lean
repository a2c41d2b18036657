/-
# The indexes of a table

Any column can have an index, which is there exactly when its file is. An index is built by one
scan over all rows; that it agrees with the rows can be checked at any time.
-/

import TableStore.Index.File
import TableStore.Table.Basic

namespace TableStore.Table

/-- The directory of the index files. -/
def indexDirectory (table : Table) : String :=
  table.name ++ "/indexes"

/-- The path of the file of the index on a column. -/
def indexPath (table : Table) (column : String) : String :=
  table.indexDirectory ++ "/" ++ FileName.ofStem column

/-- The key of a row in the index on a column. -/
def keyIn (column : String) (row : Row) : Except TableError IndexKey :=
  match IndexKey.ofJson? (row.value column) with
  | some key => .ok key
  | none => .error (.invalidValue column)

/-- Whether a column has an index. If that cannot be found out, the column counts as having
none, which only means that its predicates are evaluated row by row. -/
def hasIndex (table : Table) (column : String) : StateM Store Bool := do
  if !FileName.isSegment column then return false
  match ← (Store.isFile (table.indexPath column)).run with
  | .ok found => return found
  | .error error =>
      Store.report (.indexProbeFailed table.name column error)
      return false

/-- The index on a column. -/
def readIndex (table : Table) (column : String) : TableM IndexTable := do
  if !FileName.isSegment column then throw (.indexMissing column)
  let path := table.indexPath column
  match ← TableM.onFiles? (Store.read path) with
  | none => throw (.indexMissing column)
  | some bytes =>
      match IndexTable.ofBytes column bytes with
      | .ok index => return index
      | .error flaw => throw (.corrupted path flaw)

/-- Store an index. -/
def writeIndex (table : Table) (index : IndexTable) : TableM Unit :=
  TableM.onFiles (Store.write (table.indexPath index.column) index.toBytes)

/-- The columns that have an index, in the order of the names of their files. -/
def indexColumns (table : Table) : TableM (List String) := do
  let names ← TableM.onFiles (Store.list table.indexDirectory)
  return names.filterMap FileName.stem?

/-- Add the rows with the given identifiers to an index. An identifier without a row is passed
to `absent`, which may go on without it. -/
def scanInto (table : Table) (absent : RowId → TableM Unit) (index : IndexTable) :
    List RowId → TableM IndexTable
  | [] => return index
  | id :: rest => do
      match ← table.read id with
      | some row =>
          let key ← MonadExcept.ofExcept (keyIn index.column row)
          table.scanInto absent (index.insert key id) rest
      | none =>
          absent id
          table.scanInto absent index rest

/-- Build the index on a column from all rows, replacing the one that is there. -/
def addIndex (table : Table) (column : String) : TableM Unit := do
  if !FileName.isSegment column then throw (.invalidColumn column)
  let ids ← table.rowIds
  let index ← table.scanInto (fun _ => return) (.empty column) ids
  table.writeIndex index
  Store.report (.indexBuilt table.name column index.keyCount index.idCount)

/-- Remove the index on a column, and say whether there was one. -/
def removeIndex (table : Table) (column : String) : TableM Bool := do
  if !FileName.isSegment column then return false
  match ← TableM.onFiles? (Store.delete (table.indexPath column)) with
  | none => return false
  | some () =>
      Store.report (.indexRemoved table.name column)
      return true

/-- Fail at the first posting of one index that another does not have. -/
def checkWithin (index other : IndexTable) : TableM Unit :=
  match index.firstMissing? other with
  | some posting => throw (.indexInconsistent index.column posting.id)
  | none => return

/-- Check that an index holds every listed row under its own key, and nothing else. -/
def verifyIndex (table : Table) (ids : List RowId) (column : String) : TableM Unit := do
  let index ← table.readIndex column
  let expected ← table.scanInto (fun id => throw (.indexInconsistent column id)) (.empty column) ids
  checkWithin index expected
  checkWithin expected index

/-- Check every index of the table, and fail at the first disagreement. -/
def verifyIndexes (table : Table) : TableM Unit := do
  let ids ← table.rowIds
  let columns ← table.indexColumns
  columns.forM (table.verifyIndex ids)

end TableStore.Table
