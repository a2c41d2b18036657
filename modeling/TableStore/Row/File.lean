/-
# Row files

A row file holds one JSON object of scalar values, compact or laid out. Reading accepts both
layouts, and takes anything else for damage rather than for an empty row.
-/

import TableStore.Corruption
import TableStore.Row.Basic

namespace TableStore.Row

/-- The contents of the file of a row. -/
def toBytes (pretty : Bool) (row : Row) : Bytes :=
  Utf8.encode (if pretty then row.toJson.laidOut 0 else row.toJson.compact)

/-- Read the file of a row. -/
def ofBytes (bytes : Bytes) : Except Corruption Row :=
  match Json.ofBytes? bytes with
  | none => .error .malformed
  | some value =>
      match ofJson? value with
      | none => .error .notAnObject
      | some row =>
          match row.firstComposite? with
          | some column => .error (.compositeValue column)
          | none => .ok row

end TableStore.Row
