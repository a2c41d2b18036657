/-
# Writing rows

Every write compares the row before with the row after, column by column, and stores only those
indexes anew in which the key of the row has changed. The row file is written first, so a write
that fails later leaves the row in its new state.
-/

import TableStore.Table.Index

namespace TableStore.Table

/-- Refuse a row with an array or an object in it. -/
def checkScalars (row : Row) : TableM Unit :=
  match row.firstComposite? with
  | some column => throw (.invalidValue column)
  | none => return

/-- Move a row from its old key to its new one in the index on a column. A missing row has no
key. The answer says whether the index was stored anew. -/
def moveInIndex (table : Table) (id : RowId) (old new : Option Row) (column : String) :
    TableM Bool := do
  let oldKey ← old.mapM fun row => MonadExcept.ofExcept (keyIn column row)
  let newKey ← new.mapM fun row => MonadExcept.ofExcept (keyIn column row)
  if oldKey = newKey then return false
  let index ← table.readIndex column
  let without ←
    match oldKey with
    | some key =>
        let (held, others) := index.remove key id
        if !held then
          Store.report (.missingFromIndex table.name column id)
        pure others
    | none => pure index
  let moved :=
    match newKey with
    | some key => without.insert key id
    | none => without
  table.writeIndex moved
  return true

/-- Move a row in the indexes on the given columns, and count those that were stored
anew. -/
def moveInIndexes (table : Table) (id : RowId) (old new : Option Row) :
    List String → TableM Nat
  | [] => return 0
  | column :: rest => do
      let moved ← table.moveInIndex id old new column
      let others ← table.moveInIndexes id old new rest
      return (if moved then others + 1 else others)

/-- Put the new state of a row into its file and into the indexes. -/
def persist (table : Table) (id : RowId) (old new : Option Row) : TableM Unit := do
  let path := table.rowPath id
  TableM.onFiles <|
    match new with
    | some row => Store.write path (row.toBytes table.options.prettyRows)
    | none => Store.delete path
  let columns ← table.indexColumns
  let touched ← table.moveInIndexes id old new columns
  Store.report (.rowPersisted table.name id new.isNone touched)

/-- The identifier of the next row: one more than the greatest there is. -/
def freshId (table : Table) : TableM RowId := do
  match (← table.rowIds).getLast? with
  | none => return .first
  | some last =>
      match last.next? with
      | some id => return id
      | none => throw .idSpaceExhausted

/-- The row as it is stored under an identifier by this handle. -/
def withId (table : Table) (id : RowId) (row : Row) : Row :=
  match table.options.idColumn with
  | some column => row.insert column (.string id.toText)
  | none => row

/-- Store a row under a fresh identifier. -/
def insert (table : Table) (row : Row) : TableM RowId := do
  checkScalars row
  let id ← table.freshId
  table.persist id none (some (table.withId id row))
  return id

/-- The row stored under an identifier, which must be there. -/
def require (table : Table) (id : RowId) : TableM Row := do
  match ← table.read id with
  | some row => return row
  | none => throw (.notFound id)

/-- Merge changes into a row, and answer the merged row. -/
def update (table : Table) (id : RowId) (changes : Row) : TableM Row := do
  checkScalars changes
  let old ← table.require id
  let new := old.merge changes
  table.persist id (some old) (some new)
  return new

/-- Remove a row, and answer it. -/
def erase (table : Table) (id : RowId) : TableM Row := do
  let old ← table.require id
  table.persist id (some old) none
  return old

/-- Replace or remove whatever is stored under an identifier, and answer what was there. -/
def write (table : Table) (id : RowId) (new : Option Row) : TableM (Option Row) := do
  if let some row := new then checkScalars row
  let old ← table.read id
  if old.isNone && new.isNone then return none
  table.persist id old new
  return old

/-- Remove all rows and indexes of the table. -/
def drop (table : Table) : TableM Unit := do
  TableM.onFiles (Store.deleteAll table.name)
  Store.report (.tableDropped table.name)

end TableStore.Table
