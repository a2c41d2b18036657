/-
# Operations on a table and its ledger

Without failures, every operation on a table answers what its ledger says and leaves the files of
a new ledger. Writing one row is the heart of it: the row file is put in place, the listed indexes
are those of the ledger, and each of them ends as the index of the new rows.
-/

import TableStore.Proofs.Table.Ledger

namespace TableStore.Table

open Ledger

variable {medium : Medium} {ledgers : String → Ledger} {table : Table}
  (isTable : FileName.isSegment table.name = true) (admits : medium.AdmitsTable table.name)

include isTable admits

/-- The row file of a write is put in its new state. -/
theorem runs_putFile {id : RowId} {stored? : Option StoredRow}
    (layout : ∀ stored ∈ stored?, stored.pretty = table.options.prettyRows)
    (present : stored? = none → id ∈ (ledgers table.name).rows) :
    Runs medium [] (TableM.onFiles
        (match stored?.map StoredRow.row with
          | some row => Store.write (table.rowPath id) (row.toBytes table.options.prettyRows)
          | none => Store.delete (table.rowPath id)))
      (content ledgers) (.ok ())
      (Function.update (content ledgers) (.row table.name isTable id)
        (stored?.map StoredRow.bytes)) := by
  cases stored? with
  | some stored =>
      have bytes : stored.bytes = stored.row.toBytes table.options.prettyRows := by
        rw [StoredRow.bytes, layout stored rfl]
      simp only [Option.map_some, bytes]
      exact (Store.runs_write (.row table.name isTable id) List.not_mem_nil
        (admits.row isTable id) _).onFiles
  | none =>
      have found : (content ledgers (.row table.name isTable id)).isSome = true := by
        rw [content_row, Option.isSome_map]
        exact Std.ExtTreeMap.mem_iff_isSome_getElem?.mp (present rfl)
      exact (Store.runs_delete (.row table.name isTable id) List.not_mem_nil
        (admits.row isTable id) found).onFiles

omit admits in
/-- The index of a column that has been moved in is that of the ledger with the new row. -/
theorem index_eq_of_moved {id : RowId} {stored? : Option StoredRow} {columns : List String}
    {after : Content}
    (moved : Moved isTable id ((ledgers table.name).row? id) (stored?.map StoredRow.row)
      (ledgers table.name).index columns
      (Function.update (content ledgers) (.row table.name isTable id)
        (stored?.map StoredRow.bytes)) after) {column : String} (listed : column ∈ columns)
    (member : column ∈ (ledgers table.name).columns)
    (isColumn : FileName.isSegment column = true) :
    after (.index table.name isTable column isColumn) =
      some (((ledgers table.name).put id stored?).index column).toBytes := by
  rw [moved.index column listed isColumn,
    Function.update_of_ne (Place.row_ne_index id isColumn).symm, content_index, if_pos member]
  split
  · next same => rw [index_put_of_key?_eq _ _ _ same]
  · rw [index_put]

omit admits in
/-- Moving the row in all indexes makes the files those of the ledger with the new row. -/
theorem content_eq_of_moved {id : RowId} {stored? : Option StoredRow} {columns : List String}
    {after : Content}
    (listed : ∀ column, column ∈ columns ↔ column ∈ (ledgers table.name).columns)
    (moved : Moved isTable id ((ledgers table.name).row? id) (stored?.map StoredRow.row)
      (ledgers table.name).index columns
      (Function.update (content ledgers) (.row table.name isTable id)
        (stored?.map StoredRow.bytes)) after) :
    after =
      content (Function.update ledgers table.name ((ledgers table.name).put id stored?)) := by
  funext place
  by_cases index : ∃ column ∈ columns, ∃ isColumn,
      place = .index table.name isTable column isColumn
  · obtain ⟨column, member, isColumn, rfl⟩ := index
    have indexed := (listed column).mp member
    rw [index_eq_of_moved isTable moved member indexed isColumn, content_index,
      Function.update_self, columns_put, if_pos indexed]
  have outside : ∀ column ∈ columns, ∀ isColumn,
      place ≠ .index table.name isTable column isColumn :=
    fun column member isColumn same => index ⟨column, member, isColumn, same⟩
  rw [moved.elsewhere place outside]
  cases area : place.area with
  | rows => rw [content_update_put isTable area]
  | indexes =>
      have notRow : place ≠ .row table.name isTable id := by
        rintro rfl
        cases area
      rw [Function.update_of_ne notRow]
      by_cases here : place.table = table.name
      · have absent : ∀ column, FileName.stem? place.name = some column →
            column ∉ (ledgers table.name).columns := by
          intro column named member
          exact outside column ((listed column).mpr member)
            ((ledgers table.name).isColumn column member)
            (Place.ext here area (FileName.stem?_eq_some_iff.mp named))
        cases named : FileName.stem? place.name with
        | none => simp [content, area, named]
        | some column => simp [content, area, named, here, absent column named, put]
      · exact (content_update_of_ne here).symm

omit admits in
/-- The listed columns have their indexes stored, whatever has happened to the row file. -/
theorem indexes_stored {files : Files} {id : RowId} {bytes? : Option Bytes}
    {columns : List String}
    (holds : medium.Holds
      (Function.update (content ledgers) (.row table.name isTable id) bytes?) files)
    (listed : ∀ column, column ∈ columns ↔ column ∈ (ledgers table.name).columns) :
    ∀ column ∈ columns, ∃ isColumn bytes, medium.Admits (table.indexPath column) ∧
      Function.update (content ledgers) (.row table.name isTable id) bytes?
        (.index table.name isTable column isColumn) = some bytes ∧
      IndexTable.ofBytes column bytes = .ok ((ledgers table.name).index column) ∧
      ((ledgers table.name).index column).column = column := by
  intro column member
  have indexed := (listed column).mp member
  have isColumn := (ledgers table.name).isColumn column indexed
  have found : Function.update (content ledgers) (.row table.name isTable id) bytes?
      (.index table.name isTable column isColumn) =
        some ((ledgers table.name).index column).toBytes := by
    rw [Function.update_of_ne (Place.row_ne_index id isColumn).symm, content_index,
      if_pos indexed]
  have admitted : medium.Admits (Place.index table.name isTable column isColumn).path :=
    holds.admits (by rw [found]; rfl)
  exact ⟨isColumn, _, admitted, found, ofBytes_toBytes_index _ column, column_index _ column⟩

omit isTable admits in
/-- A row that is to be stored holds scalars. -/
theorem scalar_of_mem_map (stored? : Option StoredRow) :
    ∀ row ∈ stored?.map StoredRow.row, row.Scalar := by
  intro row member
  obtain ⟨stored, -, rfl⟩ := Option.map_eq_some_iff.mp member
  exact stored.scalar

/-- A row is put in its new state, in its file and in all indexes. -/
theorem runs_persist {id : RowId} {stored? : Option StoredRow}
    (layout : ∀ stored ∈ stored?, stored.pretty = table.options.prettyRows)
    (present : stored? = none → id ∈ (ledgers table.name).rows) :
    Runs medium []
      (table.persist id ((ledgers table.name).row? id) (stored?.map StoredRow.row))
      (content ledgers) (.ok ())
      (content (Function.update ledgers table.name ((ledgers table.name).put id stored?))) := by
  refine Runs.bind (runs_putFile isTable admits layout present) ?_
  refine Ensures.of_held fun ⟨files, holds⟩ => ?_
  refine Ensures.run_bind (ensures_indexColumns isTable admits List.not_mem_nil) ?_ ?_
  swap
  · rintro _ _ ⟨-, _, same, -⟩
    cases same
  rintro columns _ ⟨rfl, _, same, distinct, members⟩
  cases same
  have listed : ∀ column, column ∈ columns ↔ column ∈ (ledgers table.name).columns := by
    intro column
    rw [members, ← exists_index_iff isTable]
    refine exists_congr fun place => and_congr_right fun _ => and_congr_right fun area => ?_
    rw [Function.update_of_ne (by rintro rfl; cases area)]
  refine Ensures.run_bind (ensures_moveInIndexes isTable (fun _ => scalar_of_row?)
    (scalar_of_mem_map stored?) distinct (indexes_stored isTable holds listed)) ?_ ?_
  · rintro touched after ⟨moved, rest, rfl, inAll, rfl⟩
    rw [List.append_nil] at listed
    rw [content_eq_of_moved isTable listed inAll]
    exact Runs.report _
  · rintro error after ⟨_, _, _, _, _, _, _, _, ⟨_, faulted⟩, _⟩
    cases faulted

end TableStore.Table
