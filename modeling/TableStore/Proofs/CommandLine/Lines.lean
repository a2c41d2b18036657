/-
# Output that can be cut at its line breaks

Every value is printed on a line of its own, and no line break of a key or of a string is printed as
one. So cutting the output at its line breaks gives back one line for each value, and a line that
was printed for a row of scalars is read as this row.
-/

import TableStore.CommandLine.Text
import TableStore.Proofs.Collections
import TableStore.Proofs.Json.Compact
import TableStore.Proofs.Row.File

namespace TableStore

namespace CommandLine

/-- The byte of a line break. -/
def lineFeed : UInt8 :=
  UInt8.ofNat '\n'.toNat

/-- The bytes of a line without its line break. -/
def lineBytes (value : Json) : Bytes :=
  Utf8.encode value.compact

/-- Read a row from the bytes of a line, if they are text. -/
def readLine (bytes : Bytes) : Option (Except CommandError Row) :=
  (Utf8.text? bytes).map fun text => parseRow (String.ofList text)

/-- No byte of a line is a line break. -/
theorem lineFeed_notMem_lineBytes (value : Json) : lineFeed ∉ lineBytes value :=
  Utf8.notMem_encode (by decide) (Json.lineBreak_notMem_compact value)

/-- The bytes of values are those of their lines, each closed by a line break. -/
theorem writeLines_eq (values : List Json) :
    writeLines values = (values.map lineBytes).flatMap fun bytes => bytes ++ [lineFeed] := by
  have each : ∀ value, Utf8.encode (line value) = lineBytes value ++ [lineFeed] := by
    intro value
    rw [line, Utf8.encode, List.flatMap_append]
    rfl
  rw [writeLines, Utf8.encode, List.flatMap_assoc, List.flatMap_map]
  exact congrArg values.flatMap (funext each)

/-- The output is cut into one line for each value, and nothing after the last. -/
theorem splitOn_writeLines (values : List Json) :
    (writeLines values).splitOn lineFeed = values.map lineBytes ++ [[]] := by
  rw [writeLines_eq]
  apply splitOn_flatMap_closed
  intro bytes member
  obtain ⟨value, -, rfl⟩ := List.mem_map.mp member
  exact lineFeed_notMem_lineBytes value

/-- The text of a row of scalars is read as this row. -/
theorem parseRow_toText {row : Row} (scalar : row.Scalar) : parseRow row.toText = .ok row := by
  have read : Json.ofText? row.toText = some (.object row.columns) :=
    Json.ofText?_toText scalar.readable
  simp only [parseRow, read, Row.ofJson?, Row.ofColumns_columns]

/-- The line of a row of scalars is read as this row. -/
theorem readLine_lineBytes {row : Row} (scalar : row.Scalar) :
    readLine (lineBytes row.toJson) = some (.ok row) := by
  rw [readLine, lineBytes, Utf8.text?_encode, Option.map_some]
  exact congrArg some (parseRow_toText scalar)

/-- What is printed for rows of scalars, whatever characters are in their columns and strings, is
cut at its line breaks into exactly one line for each row and nothing after the last, and each line
is read as the row that it was printed for: the same columns in the same order, each with the same
value. -/
theorem lines_read_back {rows : List Row} (scalar : ∀ row ∈ rows, row.firstComposite? = none) :
    ∃ lines : List Bytes,
      (writeLines (rows.map Row.toJson)).splitOn lineFeed = lines ++ [[]] ∧
      lines.length = rows.length ∧
      lines.map readLine = rows.map fun row => some (.ok row) := by
  refine ⟨(rows.map Row.toJson).map lineBytes, splitOn_writeLines _, by simp, ?_⟩
  rw [List.map_map, List.map_map]
  apply List.map_congr_left
  intro row member
  exact readLine_lineBytes (Row.firstComposite?_eq_none_iff.mp (scalar row member))

/-- A row with a line break in the name of a column is one line, and so is the row without columns
after it. -/
theorem lines_read_back_oddities :
    ∃ first second : Bytes,
      (writeLines [Row.oddities.toJson, Row.empty.toJson]).splitOn lineFeed = [first, second, []] ∧
      readLine first = some (.ok Row.oddities) ∧ readLine second = some (.ok Row.empty) := by
  have scalar : ∀ row ∈ [Row.oddities, Row.empty], row.firstComposite? = none :=
    List.forall_mem_cons.mpr ⟨rfl, List.forall_mem_singleton.mpr rfl⟩
  obtain ⟨lines, cut, count, read⟩ := lines_read_back scalar
  match lines, count with
  | [first, second], _ =>
      obtain ⟨one, two⟩ := List.cons_eq_cons.mp read
      exact ⟨first, second, cut, one, (List.cons_eq_cons.mp two).1⟩

end CommandLine

end TableStore
