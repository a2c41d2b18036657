/-
# Tables and their rows

A table is a name on a store, together with the options under which this handle writes. Its
rows are the files `<table>/rows/<id>.json` and its indexes the files
`<table>/indexes/<column>.json`; opening a table writes nothing.
-/

import TableStore.Row.File
import TableStore.Store
import TableStore.Table.Error

namespace TableStore

/-- How a handle writes rows. -/
structure TableOptions where
  /-- The column that an inserted row gets its identifier in, if there is one. -/
  idColumn : Option String
  /-- Whether row files are laid out over several lines. -/
  prettyRows : Bool
  deriving DecidableEq, Repr

/-- Identifiers are kept in the column `id`, and row files are compact. -/
def TableOptions.default : TableOptions where
  idColumn := some "id"
  prettyRows := false

/-- A handle on a table. -/
structure Table where
  name : String
  options : TableOptions
  deriving DecidableEq, Repr

/-- An operation on a table. -/
abbrev TableM :=
  StoreM TableError

/-- An operation on the files, whose failures are failures of the table. -/
def TableM.onFiles {α : Type} (operation : StoreM FileError α) : TableM α :=
  ExceptT.adapt TableError.files operation

/-- An operation on the files that asks for something which may be missing. -/
def TableM.onFiles? {α : Type} (operation : StoreM FileError α) : TableM (Option α) :=
  ExceptT.mk do
    match ← operation.run with
    | .ok value => return .ok (some value)
    | .error (.notFound _) => return .ok none
    | .error error => return .error (.files error)

namespace Table

/-- A handle on the table with a given name. -/
def ofName (name : String) (options : TableOptions) : Except TableError Table :=
  if !FileName.isSegment name then .error (.invalidTableName name)
  else
    match options.idColumn with
    | some "" => .error (.invalidColumn "")
    | _ => .ok { name, options }

/-- The directory of the row files. -/
def rowDirectory (table : Table) : String :=
  table.name ++ "/rows"

/-- The path of the file of a row. -/
def rowPath (table : Table) (id : RowId) : String :=
  table.rowDirectory ++ "/" ++ id.fileName

/-- The row stored under an identifier, if there is one. -/
def read (table : Table) (id : RowId) : TableM (Option Row) := do
  let path := table.rowPath id
  match ← TableM.onFiles? (Store.read path) with
  | none => return none
  | some bytes =>
      match Row.ofBytes bytes with
      | .ok row => return some row
      | .error flaw => throw (.corrupted path flaw)

/-- The identifiers among the names in the directory of rows. Other files there are reported and
left alone. -/
def identify (table : Table) : List String → StateM Store (List RowId)
  | [] => return []
  | name :: rest => do
      match RowId.ofFileName? name with
      | some id => return id :: (← table.identify rest)
      | none =>
          Store.report (.foreignFile table.name name)
          table.identify rest

/-- The identifiers of all rows, ascending by number. -/
def rowIds (table : Table) : TableM (List RowId) := do
  let names ← TableM.onFiles (Store.list table.rowDirectory)
  let ids ← table.identify names
  return ids.mergeSort fun first second => first.value ≤ second.value

/-- The number of rows. -/
def size (table : Table) : TableM Nat := do
  return (← table.rowIds).length

/-- Whether there are no rows. -/
def isEmpty (table : Table) : TableM Bool := do
  return (← table.rowIds).isEmpty

end Table

end TableStore
