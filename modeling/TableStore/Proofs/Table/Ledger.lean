/-
# Ledgers

What a table is about, without its files: the rows by identifier, each with the layout it was
written in, and the columns that have an index. The files of a table follow from its ledger, the
index files too, because an index is a function of the rows.
-/

import Mathlib.Logic.Function.Basic
import TableStore.Proofs.Table.Write

namespace TableStore

/-- A row of scalars with the layout of its file. -/
structure StoredRow where
  row : Row
  pretty : Bool
  scalar : row.Scalar

namespace StoredRow

/-- The contents of the file of the row. -/
def bytes (stored : StoredRow) : Bytes :=
  stored.row.toBytes stored.pretty

/-- The file of a row is read as this row. -/
theorem ofBytes_bytes (stored : StoredRow) : Row.ofBytes stored.bytes = .ok stored.row :=
  Row.ofBytes_toBytes stored.pretty stored.scalar

end StoredRow

/-- The rows of a table and the columns with an index. -/
structure Ledger where
  rows : Std.ExtTreeMap RowId StoredRow
  columns : Std.ExtTreeSet String
  isColumn : ∀ column ∈ columns, FileName.isSegment column = true

namespace IndexTable

/-- A move adds the new key of the row and takes the old one away. -/
theorem contains_move (index : IndexTable) (id row : RowId) (old new : Option IndexKey)
    (key : IndexKey) :
    (index.move id old new).contains key row = true ↔
      new = some key ∧ id = row ∨
        ¬(old = some key ∧ id = row) ∧ index.contains key row = true := by
  cases old <;> cases new <;> simp [move]

end IndexTable

namespace Ledger

/-- No rows and no indexes. -/
def empty : Ledger where
  rows := ∅
  columns := ∅
  isColumn _ member := absurd member Std.ExtTreeSet.not_mem_empty

/-- The row under an identifier. -/
def row? (ledger : Ledger) (id : RowId) : Option Row :=
  ledger.rows[id]?.map StoredRow.row

/-- The index on a column: every row under its key. -/
def index (ledger : Ledger) (column : String) : IndexTable :=
  ledger.rows.toList.foldl (fun index entry => index.insert (entry.2.row.key column) entry.1)
    (.empty column)

/-- Put a row under an identifier, or remove the one that is there. -/
def put (ledger : Ledger) (id : RowId) (stored? : Option StoredRow) : Ledger where
  rows :=
    match stored? with
    | some stored => ledger.rows.insert id stored
    | none => ledger.rows.erase id
  columns := ledger.columns
  isColumn := ledger.isColumn

/-- Add a column to those with an index. -/
def addColumn (ledger : Ledger) (column : String)
    (isColumn : FileName.isSegment column = true) : Ledger where
  rows := ledger.rows
  columns := ledger.columns.insert column
  isColumn other member := by
    rcases Std.ExtTreeSet.mem_insert.mp member with same | listed
    · exact Std.LawfulEqOrd.eq_of_compare same ▸ isColumn
    · exact ledger.isColumn other listed

/-- Take a column from those with an index. -/
def removeColumn (ledger : Ledger) (column : String) : Ledger where
  rows := ledger.rows
  columns := ledger.columns.erase column
  isColumn other member := ledger.isColumn other (Std.ExtTreeSet.mem_of_mem_erase member)

/-- What is stored under an identifier after something was put under another or the same. -/
theorem getElem?_put (ledger : Ledger) (id other : RowId) (stored? : Option StoredRow) :
    (ledger.put id stored?).rows[other]? = if id = other then stored? else ledger.rows[other]? := by
  cases stored? with
  | some stored => simp [put, Std.ExtTreeMap.getElem?_insert]
  | none => simp [put, Std.ExtTreeMap.getElem?_erase]

/-- Putting a row does not change which columns have an index. -/
@[simp]
theorem columns_put (ledger : Ledger) (id : RowId) (stored? : Option StoredRow) :
    (ledger.put id stored?).columns = ledger.columns :=
  rfl

/-- The row under an identifier after something was put under another or the same. -/
theorem row?_put (ledger : Ledger) (id other : RowId) (stored? : Option StoredRow) :
    (ledger.put id stored?).row? other =
      if id = other then stored?.map StoredRow.row else ledger.row? other := by
  rw [row?, getElem?_put]
  split <;> rfl

/-- The rows of a ledger hold scalars. -/
theorem scalar_of_row? {ledger : Ledger} {id : RowId} {row : Row}
    (found : ledger.row? id = some row) : row.Scalar := by
  obtain ⟨stored, -, rfl⟩ := Option.map_eq_some_iff.mp found
  exact stored.scalar

/-- The index on a column, by its pairs. -/
theorem index_eq_foldl_postings (ledger : Ledger) (column : String) :
    ledger.index column =
      (ledger.rows.toList.map fun entry => Posting.mk (entry.2.row.key column) entry.1).foldl
        (fun index posting => index.insert posting.key posting.id) (.empty column) := by
  rw [List.foldl_map, index]

/-- The index on a column is one on this column. -/
@[simp]
theorem column_index (ledger : Ledger) (column : String) :
    (ledger.index column).column = column := by
  rw [index_eq_foldl_postings, IndexTable.column_foldl_insert]
  rfl

/-- An index holds exactly the rows, each under its key. -/
theorem contains_index (ledger : Ledger) (column : String) (key : IndexKey) (id : RowId) :
    (ledger.index column).contains key id = true ↔
      Row.key? (ledger.row? id) column = some key := by
  rw [index_eq_foldl_postings, IndexTable.contains_foldl_insert, IndexTable.contains_empty,
    Row.key?, row?, Option.map_map, Option.map_eq_some_iff, List.mem_map]
  constructor
  · rintro (⟨⟨other, stored⟩, listed, same⟩ | nothing)
    · cases same
      exact ⟨stored, Std.ExtTreeMap.mem_toList_iff_getElem?_eq_some.mp listed, rfl⟩
    · cases nothing
  · rintro ⟨stored, found, rfl⟩
    exact .inl ⟨(id, stored), Std.ExtTreeMap.mem_toList_iff_getElem?_eq_some.mpr found, rfl⟩

/-- The keys of an index are those of values. -/
theorem canonical_index (ledger : Ledger) (column : String) :
    (ledger.index column).Canonical := by
  intro key id held
  rw [contains_index, Row.key?, Option.map_eq_some_iff] at held
  obtain ⟨row, found, rfl⟩ := held
  exact (scalar_of_row? found).canonical_key column

/-- The file of an index is read as this index. -/
theorem ofBytes_toBytes_index (ledger : Ledger) (column : String) :
    IndexTable.ofBytes column (ledger.index column).toBytes = .ok (ledger.index column) := by
  have read := IndexTable.ofBytes_toBytes (ledger.canonical_index column)
  rwa [column_index] at read

/-- Putting a row moves it in every index from its old key to its new one. -/
theorem index_put (ledger : Ledger) (id : RowId) (stored? : Option StoredRow) (column : String) :
    (ledger.put id stored?).index column =
      (ledger.index column).move id (Row.key? (ledger.row? id) column)
        (Row.key? (stored?.map StoredRow.row) column) := by
  refine IndexTable.ext_contains (by simp) fun key other => ?_
  rw [contains_index, IndexTable.contains_move, contains_index, row?_put]
  by_cases same : id = other
  · subst same
    simp
  · simp [same]

/-- An index in which no key has changed is as before. -/
theorem index_put_of_key?_eq (ledger : Ledger) (id : RowId) (stored? : Option StoredRow)
    {column : String} (same : Row.key? (ledger.row? id) column =
      Row.key? (stored?.map StoredRow.row) column) :
    (ledger.put id stored?).index column = ledger.index column := by
  refine IndexTable.ext_contains (by simp) fun key other => ?_
  rw [contains_index, contains_index, row?_put]
  by_cases here : id = other
  · subst here
    simp [same]
  · simp [here]

/-- Ledgers are known by their rows and by the columns with an index. -/
theorem ext_rows {first second : Ledger} (columns : first.columns = second.columns)
    (rows : ∀ id : RowId, first.rows[id]? = second.rows[id]?) : first = second := by
  have same := Std.ExtTreeMap.ext_getElem? fun {id} => rows id
  cases first
  cases second
  cases columns
  cases same
  rfl

/-- Putting what is there changes nothing. -/
theorem put_getElem? (ledger : Ledger) (id : RowId) : ledger.put id ledger.rows[id]? = ledger := by
  refine ext_rows rfl fun other => ?_
  rw [getElem?_put]
  split
  · next same => rw [same]
  · rfl

/-- Putting a row where it is already changes nothing. -/
theorem put_of_getElem? {ledger : Ledger} {id : RowId} {stored : StoredRow}
    (present : ledger.rows[id]? = some stored) : ledger.put id (some stored) = ledger := by
  rw [← present, put_getElem?]

/-- Removing a row that is not there changes nothing. -/
theorem put_none_of_notMem {ledger : Ledger} {id : RowId} (absent : id ∉ ledger.rows) :
    ledger.put id none = ledger := by
  rw [← Std.ExtTreeMap.getElem?_eq_none absent, put_getElem?]

/-- An index can be built from the identifiers in order. -/
theorem index_eq_foldl_keys (ledger : Ledger) (column : String) :
    ledger.index column =
      ledger.rows.keys.foldl
        (fun index id => index.insert (((ledger.row? id).getD .empty).key column) id)
        (.empty column) := by
  rw [← Std.ExtTreeMap.map_fst_toList_eq_keys, List.foldl_map, index]
  refine List.foldl_ext _ _ _ fun index entry member => ?_
  rw [row?, Std.ExtTreeMap.mem_toList_iff_getElem?_eq_some.mp member]
  rfl

/-- Taking away an index that is not there changes nothing. -/
theorem removeColumn_of_notMem {ledger : Ledger} {column : String}
    (absent : column ∉ ledger.columns) : ledger.removeColumn column = ledger := by
  have same : ledger.columns.erase column = ledger.columns := by
    refine Std.ExtTreeSet.ext_mem fun other => ?_
    rw [Std.ExtTreeSet.mem_erase]
    refine and_iff_right_of_imp fun member equal => absent ?_
    rwa [Std.LawfulEqOrd.eq_of_compare equal]
  obtain ⟨rows, columns, isColumn⟩ := ledger
  simpa only [removeColumn, mk.injEq, true_and] using same

/-- The files of tables with given ledgers. -/
def content (ledgers : String → Ledger) : Content := fun place =>
  match place.area with
  | .rows =>
      (RowId.ofFileName? place.name).bind fun id =>
        (ledgers place.table).rows[id]?.map StoredRow.bytes
  | .indexes =>
      (FileName.stem? place.name).bind fun column =>
        if column ∈ (ledgers place.table).columns then
          some ((ledgers place.table).index column).toBytes
        else none

variable {ledgers : String → Ledger} {table : String}

/-- The file of a row. -/
@[simp]
theorem content_row (isTable : FileName.isSegment table = true) (id : RowId) :
    content ledgers (.row table isTable id) = (ledgers table).rows[id]?.map StoredRow.bytes := by
  simp [content, Place.row]

/-- The file of an index. -/
@[simp]
theorem content_index (isTable : FileName.isSegment table = true) {column : String}
    (isColumn : FileName.isSegment column = true) :
    content ledgers (.index table isTable column isColumn) =
      if column ∈ (ledgers table).columns then some ((ledgers table).index column).toBytes
      else none := by
  simp only [content, Place.index, FileName.stem?_ofStem, Option.bind_some]
  rfl

/-- A new ledger of one table leaves the files of the others. -/
theorem content_update_of_ne {ledger : Ledger} {place : Place} (other : place.table ≠ table) :
    content (Function.update ledgers table ledger) place = content ledgers place := by
  simp [content, Function.update_of_ne other]

/-- The same rows have the same files. -/
theorem content_update_rows {ledger : Ledger} {place : Place} (area : place.area = .rows)
    (same : ledger.rows = (ledgers table).rows) :
    content (Function.update ledgers table ledger) place = content ledgers place := by
  by_cases here : place.table = table
  · simp [content, area, here, same]
  · exact content_update_of_ne here

/-- Putting a row changes the file of this row and no other row file. -/
theorem content_update_put {place : Place} (isTable : FileName.isSegment table = true)
    (area : place.area = .rows) (id : RowId) (stored? : Option StoredRow) :
    content (Function.update ledgers table ((ledgers table).put id stored?)) place =
      Function.update (content ledgers) (.row table isTable id) (stored?.map StoredRow.bytes)
        place := by
  by_cases here : place = .row table isTable id
  · subst here
    simp [getElem?_put]
  · rw [Function.update_of_ne here]
    by_cases same : place.table = table
    · cases named : RowId.ofFileName? place.name with
      | none => simp [content, area, named]
      | some other =>
          have apart : id ≠ other := by
            rintro rfl
            exact here (Place.ext same area (RowId.ofFileName?_eq_some_iff.mp named))
          simp [content, area, named, same, getElem?_put, apart]
    · exact content_update_of_ne same

/-- Every file is that of a row or of an index. -/
theorem exists_of_content {place : Place} (stored : (content ledgers place).isSome = true) :
    (∃ id ∈ (ledgers place.table).rows, place = .row place.table place.isTable id) ∨
      ∃ column, ∃ member : column ∈ (ledgers place.table).columns,
        place = .index place.table place.isTable column
          ((ledgers place.table).isColumn column member) := by
  obtain ⟨name, area, file, isTable, isName⟩ := place
  cases area with
  | rows =>
      left
      obtain ⟨bytes, found⟩ := Option.isSome_iff_exists.mp stored
      obtain ⟨id, named, row⟩ := Option.bind_eq_some_iff.mp found
      obtain ⟨stored, present, -⟩ := Option.map_eq_some_iff.mp row
      refine ⟨id, ?_, Place.ext rfl rfl (RowId.ofFileName?_eq_some_iff.mp named)⟩
      rw [Std.ExtTreeMap.mem_iff_isSome_getElem?, present]
      rfl
  | indexes =>
      right
      obtain ⟨bytes, found⟩ := Option.isSome_iff_exists.mp stored
      obtain ⟨column, named, index⟩ := Option.bind_eq_some_iff.mp found
      by_cases member : column ∈ (ledgers name).columns
      · exact ⟨column, member, Place.ext rfl rfl (FileName.stem?_eq_some_iff.mp named)⟩
      · rw [if_neg member] at index
        cases index

/-- The columns whose index files are there are those with an index. -/
theorem exists_index_iff (isTable : FileName.isSegment table = true) (column : String) :
    (∃ place : Place, place.table = table ∧ place.area = .indexes ∧
        place.name = FileName.ofStem column ∧ (content ledgers place).isSome = true) ↔
      column ∈ (ledgers table).columns := by
  constructor
  · rintro ⟨place, rfl, area, name, stored⟩
    rcases exists_of_content stored with ⟨id, -, same⟩ | ⟨other, member, same⟩
    · rw [same] at area
      cases area
    · have names : place.name = FileName.ofStem other := congrArg Place.name same
      rwa [FileName.ofStem_injective (name.symm.trans names)]
  · intro member
    refine ⟨.index table isTable column ((ledgers table).isColumn column member), rfl, rfl, rfl, ?_⟩
    rw [content_index, if_pos member]
    rfl

/-- Listing a column as one with an index adds the file of the index. -/
theorem content_addColumn {column : String} (isTable : FileName.isSegment table = true)
    (isColumn : FileName.isSegment column = true) :
    content (Function.update ledgers table ((ledgers table).addColumn column isColumn)) =
      Function.update (content ledgers) (.index table isTable column isColumn)
        (some ((ledgers table).index column).toBytes) := by
  funext place
  by_cases here : place = .index table isTable column isColumn
  · subst here
    rw [content_index, Function.update_self, Function.update_self, if_pos (by simp [addColumn])]
    rfl
  rw [Function.update_of_ne here]
  by_cases same : place.table = table
  swap
  · exact content_update_of_ne same
  cases area : place.area with
  | rows => exact content_update_rows area rfl
  | indexes =>
      cases named : FileName.stem? place.name with
      | none => simp [content, area, named]
      | some other =>
          have apart : column ≠ other := by
            rintro rfl
            exact here (Place.ext same area (FileName.stem?_eq_some_iff.mp named))
          simp [content, area, named, same, addColumn, apart, index]

/-- Taking a column from those with an index removes the file of the index. -/
theorem content_removeColumn {column : String} (isTable : FileName.isSegment table = true)
    (isColumn : FileName.isSegment column = true) :
    content (Function.update ledgers table ((ledgers table).removeColumn column)) =
      Function.update (content ledgers) (.index table isTable column isColumn) none := by
  funext place
  by_cases here : place = .index table isTable column isColumn
  · subst here
    rw [content_index, Function.update_self, Function.update_self,
      if_neg (by simp [removeColumn])]
  rw [Function.update_of_ne here]
  by_cases same : place.table = table
  swap
  · exact content_update_of_ne same
  cases area : place.area with
  | rows => exact content_update_rows area rfl
  | indexes =>
      cases named : FileName.stem? place.name with
      | none => simp [content, area, named]
      | some other =>
          have apart : column ≠ other := by
            rintro rfl
            exact here (Place.ext same area (FileName.stem?_eq_some_iff.mp named))
          simp [content, area, named, same, removeColumn, apart, index]

/-- Empty tables have no files. -/
theorem content_empty : content (fun _ => .empty) = fun _ => none := by
  funext place
  cases area : place.area <;> simp [content, area, empty]

/-- An empty table has no files. -/
theorem content_update_empty :
    content (Function.update ledgers table .empty) =
      fun place => if place.table = table then none else content ledgers place := by
  funext place
  by_cases same : place.table = table
  · rw [if_pos same]
    cases area : place.area <;> simp [content, area, same, empty]
  · rw [if_neg same, content_update_of_ne same]

end Ledger

end TableStore
