/-
# Running commands

A command runs against the tables of a database and answers with values, one for each line of
its output.
-/

import TableStore.CommandLine.Invocation
import TableStore.CommandLine.Text
import TableStore.Database
import TableStore.Query.Explain

namespace TableStore.CommandLine

/-- An operation of a command. -/
abbrev CommandM :=
  StoreM CommandError

/-- An operation on a table, whose failures are failures of the command. -/
def CommandM.onTable {α : Type} (operation : TableM α) : CommandM α :=
  ExceptT.adapt CommandError.table operation

/-- An operation that runs a query. -/
def CommandM.onQuery {α : Type} (operation : QueryM α) : CommandM α :=
  ExceptT.adapt CommandError.query operation

/-- A handle on a table. -/
def openTable (database : Database) (name : String) : CommandM Table :=
  CommandM.onTable (MonadExcept.ofExcept (database.table name))

namespace Selection

/-- The query for the selected rows of a table. -/
def query (selection : Selection) (table : Table) : CommandM Query := do
  let filtered ←
    if selection.filters.isEmpty then pure (Query.all table)
    else do
      let criteria ← MonadExcept.ofExcept (parseFilters selection.filters)
      Query.filter criteria (.all table)
  let projected :=
    if selection.columns.isEmpty then filtered else filtered.select selection.columns
  return match selection.limit with
    | some bound => projected.limit bound
    | none => projected

/-- Describe the query for the selected rows, or run it. -/
def run (selection : Selection) (database : Database) (action : Query → CommandM (List Json)) :
    CommandM (List Json) := do
  let table ← openTable database selection.table
  let query ← selection.query table
  if selection.explain then return [(← query.explain).toJson]
  action query

end Selection

/-- Run a command. -/
def Command.run (database : Database) : Command → CommandM (List Json)
  | .tables => do
      let names ← CommandM.onTable Database.tableNames
      return names.map fun name => .object [("table", .string name)]
  | .insert name row => do
      let table ← openTable database name
      let row ← MonadExcept.ofExcept (parseRow row)
      let id ← CommandM.onTable (table.insert row)
      return [.object [("id", .string id.toText)]]
  | .get selection =>
      selection.run database fun query => do
        return (← CommandM.onQuery query.get).map Row.toJson
  | .count selection =>
      selection.run database fun query => do
        let count ← CommandM.onQuery query.count
        return [.object [("count", .ofUInt64 (UInt64.ofNat count))]]
  | .delete selection =>
      selection.run database fun query => do
        let rows ← CommandM.onQuery query.delete
        Store.report (.rowsDeleted selection.table rows.length)
        return rows.map Row.toJson
  | .set selection changes => do
      let changes ← MonadExcept.ofExcept (parseRow changes)
      selection.run database fun query => do
        return (← CommandM.onQuery (query.set changes)).map Row.toJson
  | .addIndex name column => do
      let table ← openTable database name
      CommandM.onTable (table.addIndex column)
      return [.object [("table", .string name), ("column", .string column),
        ("indexed", .bool true)]]
  | .removeIndex name column => do
      let table ← openTable database name
      let removed ← CommandM.onTable (table.removeIndex column)
      return [.object [("table", .string name), ("column", .string column),
        ("removed", .bool removed)]]
  | .listIndexes name => do
      let table ← openTable database name
      let columns ← CommandM.onTable table.indexColumns
      return columns.map fun column => .object [("column", .string column)]
  | .drop name => do
      let dropped ← CommandM.onTable (database.dropTable name)
      return [.object [("table", .string name), ("dropped", .bool dropped)]]

end TableStore.CommandLine
