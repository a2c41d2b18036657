/-
# Index files

An index file is a compact array with one record for each key: its value and the rows that hold
it. Reading accepts records in any order, and a whole file must have the right shape before the
first key is looked at.
-/

import TableStore.Corruption
import TableStore.Index.Table
import TableStore.Json.Printer
import TableStore.Json.Reader

namespace TableStore.IndexTable

/-- One record of an index file. -/
structure Entry where
  value : Json
  ids : List RowId

namespace Entry

/-- The record of a key and its rows. -/
def toJson (key : IndexKey) (ids : List RowId) : Json :=
  .object [("value", key.toJson), ("ids", .array (ids.map fun id => .string id.toText))]

/-- The identifiers that an array of strings names. -/
def ids? : Json.Source → Option (List RowId)
  | .array items => items.mapM fun item => item.string?.bind RowId.ofText?
  | _ => none

/-- Read a record. Its value lies two levels below the file, the array and the record itself. -/
def ofSource? (source : Json.Source) : Option Entry := do
  let fields ← source.record? ["value", "ids"]
  let value ← (← fields.lookup "value").value? (Json.depthLimit - 2)
  let ids ← ids? (← fields.lookup "ids")
  return { value, ids }

end Entry

/-- The contents of the file of an index. -/
def toBytes (table : IndexTable) : Bytes :=
  let entries := table.entries.map fun (key, ids) => Entry.toJson key ids
  Utf8.encode (Json.array entries).compact

/-- Read the records of an index file. -/
def entriesOfBytes? (bytes : Bytes) : Option (List Entry) :=
  match Json.Source.ofBytes? bytes with
  | some (.array items) => items.mapM Entry.ofSource?
  | _ => none

/-- Add the rows of one record. -/
def insertEntry (table : IndexTable) (entry : Entry) : Except Corruption IndexTable :=
  match IndexKey.ofJson? entry.value with
  | some key => .ok (entry.ids.foldl (fun table id => table.insert key id) table)
  | none => .error .compositeKey

/-- Read the file of the index on a column. -/
def ofBytes (column : String) (bytes : Bytes) : Except Corruption IndexTable :=
  match entriesOfBytes? bytes with
  | some entries => entries.foldlM insertEntry (empty column)
  | none => .error .malformed

end TableStore.IndexTable
