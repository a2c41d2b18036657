/-
# Databases

A database is all the tables of a store, under one set of options. Every table has a directory of
its own, and a table is listed as soon as something is stored for it.
-/

import TableStore.Table.Write

namespace TableStore

/-- The tables of a store, as they are opened with certain options. -/
structure Database where
  options : TableOptions
  deriving DecidableEq, Repr

namespace Database

/-- A handle on a table. -/
def table (database : Database) (name : String) : Except TableError Table :=
  Table.ofName name database.options

/-- The names of the tables, ascending. -/
def tableNames : TableM (List String) := do
  let names ← TableM.onFiles (Store.list "")
  return names.filter FileName.isSegment

/-- Remove a table, and say whether it was listed. -/
def dropTable (database : Database) (name : String) : TableM Bool := do
  let table ← MonadExcept.ofExcept (database.table name)
  let names ← tableNames
  table.drop
  return names.contains name

end Database

end TableStore
