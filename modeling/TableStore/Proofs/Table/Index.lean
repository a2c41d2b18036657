/-
# Reading and writing indexes

An index is read as what its file holds and stored under its column. A scan over rows adds their
keys one after another, and a check of an index compares it with such a scan.
-/

import TableStore.Proofs.Index.File
import TableStore.Proofs.Row.File
import TableStore.Proofs.Table.Basic

namespace TableStore

/-- The key of a row in the index on a column. -/
def Row.key (row : Row) (column : String) : IndexKey :=
  (IndexKey.ofJson? (row.value column)).getD .null

namespace Row.Scalar

variable {row : Row} (scalar : row.Scalar)

include scalar

/-- A row of scalars has a key in every column. -/
theorem ofJson?_value (column : String) :
    IndexKey.ofJson? (row.value column) = some (row.key column) := by
  obtain ⟨key, found⟩ := IndexKey.exists_ofJson?_eq (scalar.isScalar_value column)
  rw [Row.key, found, Option.getD_some]

/-- The keys of a row of scalars are canonical. -/
theorem canonical_key (column : String) : (row.key column).Canonical :=
  IndexKey.canonical_of_ofJson? (scalar.ofJson?_value column)

/-- The key of a row of scalars is found. -/
theorem keyIn_eq (column : String) : Table.keyIn column row = .ok (row.key column) := by
  rw [Table.keyIn, scalar.ofJson?_value]

end Row.Scalar

namespace IndexTable

/-- The index on a column over rows with given identifiers. -/
def ofRows (rows : RowId → Row) (column : String) (ids : List RowId) : IndexTable :=
  ids.foldl (fun index id => index.insert ((rows id).key column) id) (empty column)

/-- An index over rows is one on its column. -/
theorem column_ofRows (rows : RowId → Row) (column : String) (ids : List RowId) :
    (ofRows rows column ids).column = column := by
  have named := column_foldl_insert (ids.map fun id => ⟨(rows id).key column, id⟩) (empty column)
  rwa [List.foldl_map] at named

/-- An index over rows holds each of them under its key. -/
theorem contains_ofRows {rows : RowId → Row} {column : String} {ids : List RowId} {key : IndexKey}
    {id : RowId} :
    (ofRows rows column ids).contains key id = true ↔ id ∈ ids ∧ (rows id).key column = key := by
  have pairs := contains_foldl_insert (ids.map fun id => ⟨(rows id).key column, id⟩)
    (empty column) key id
  rw [List.foldl_map] at pairs
  rw [ofRows, pairs, contains_empty, List.mem_map]
  constructor
  · rintro (⟨other, member, same⟩ | nothing)
    · cases same
      exact ⟨member, rfl⟩
    · cases nothing
  · rintro ⟨member, rfl⟩
    exact .inl ⟨id, member, rfl⟩

end IndexTable

namespace Table

variable {medium : Medium} {faults : List Fault} {content : Content} {table : Table}

/-- A column that is found to have an index has one. -/
theorem ensures_hasIndex (isTable : FileName.isSegment table.name = true) (column : String) :
    Ensures medium faults (table.hasIndex column) content fun found left =>
      left = content ∧ (found = true → ∃ isColumn : FileName.isSegment column = true,
        (content (.index table.name isTable column isColumn)).isSome = true) := by
  unfold hasIndex
  by_cases isColumn : FileName.isSegment column = true
  · rw [if_neg (by simp [isColumn])]
    refine Ensures.bind (Store.ensures_isFile (.index table.name isTable column isColumn)) ?_
    rintro answer _ ⟨rfl, answered⟩
    cases answer with
    | ok found => exact .pure ⟨rfl, fun yes => ⟨isColumn, (answered found rfl).symm.trans yes⟩⟩
    | error error =>
        refine (Ensures.report _).bind ?_
        rintro _ _ rfl
        exact .pure ⟨rfl, fun yes => nomatch yes⟩
  · rw [if_pos (by simpa using isColumn)]
    exact .pure ⟨rfl, fun yes => nomatch yes⟩

variable (isTable : FileName.isSegment table.name = true)
  (admits : medium.AdmitsTable table.name)

include isTable

/-- The columns that are listed are those that index files are named for. -/
theorem ensures_indexColumns (admits : medium.AdmitsTable table.name)
    (unfaulted : (⟨.list, table.indexDirectory⟩ : Fault) ∉ faults) :
    Ensures medium faults table.indexColumns.run content fun answer left =>
      left = content ∧ ∃ columns, answer = .ok columns ∧ columns.Nodup ∧
        ∀ column, column ∈ columns ↔ ∃ place : Place, place.table = table.name ∧
          place.area = .indexes ∧ place.name = FileName.ofStem column ∧
          (content place).isSome = true := by
  refine Ensures.run_bind (Store.ensures_list .indexes unfaulted isTable
    (admits.area .indexes)).onFiles ?_ ?_
  · rintro names left ⟨_, answered, rfl, names, rfl, ordered, members⟩
    cases answered
    refine .pure ⟨rfl, _, rfl, ?_, fun column => ?_⟩
    · refine List.Nodup.filterMap ?_ (ordered.imp fun less => String.ne_of_lt less)
      intro first second column named alsoNamed
      rw [FileName.stem?_eq_some_iff.mp named, FileName.stem?_eq_some_iff.mp alsoNamed]
    · rw [List.mem_filterMap, ← members]
      constructor
      · rintro ⟨name, listed, named⟩
        rwa [← FileName.stem?_eq_some_iff.mp named]
      · exact fun listed => ⟨FileName.ofStem column, listed, FileName.stem?_ofStem column⟩
  · rintro _ _ ⟨_, answered, rfl, names, rfl, -, -⟩
    cases answered

/-- A stored index is read. -/
theorem runs_readIndex {column : String} (isColumn : FileName.isSegment column = true)
    (admitted : medium.Admits (table.indexPath column)) {bytes : Bytes} {index : IndexTable}
    (unfaulted : (⟨.read, table.indexPath column⟩ : Fault) ∉ faults)
    (stored : content (.index table.name isTable column isColumn) = some bytes)
    (decoded : IndexTable.ofBytes column bytes = .ok index) :
    Runs medium faults (table.readIndex column) content (.ok index) content := by
  have found := (Store.runs_read (.index table.name isTable column isColumn) unfaulted
    admitted stored).onFiles?
  unfold readIndex
  simp only [isColumn, Bool.not_true, Bool.false_eq_true, if_false]
  refine Runs.bind found ?_
  simp only [decoded]
  exact .pure _

omit isTable in
/-- An index whose reading is ordered to fail is not read. -/
theorem runs_readIndex_of_faulted {column : String}
    (isColumn : FileName.isSegment column = true)
    (faulted : (⟨.read, table.indexPath column⟩ : Fault) ∈ faults) :
    Runs medium faults (table.readIndex column) content
      (.error (.files (.io (table.indexPath column) .injected))) content := by
  have failed := (@Store.runs_of_faulted medium faults content _ _ _
    (Store.inspect (Files.read (table.indexPath column))) faulted).onFiles?
  unfold readIndex
  simp only [isColumn, Bool.not_true, Bool.false_eq_true, if_false]
  exact Runs.bind_error failed

omit isTable in
/-- An index whose writing is ordered to fail is not written. -/
theorem runs_writeIndex_of_faulted {index : IndexTable}
    (faulted : (⟨.write, table.indexPath index.column⟩ : Fault) ∈ faults) :
    Runs medium faults (table.writeIndex index) content
      (.error (.files (.io (table.indexPath index.column) .injected))) content :=
  (Store.runs_of_faulted
    (Store.change (Files.write (table.indexPath index.column) index.toBytes)) faulted).onFiles

/-- A written index is stored. -/
theorem runs_writeIndex {column : String} {index : IndexTable} (named : index.column = column)
    (isColumn : FileName.isSegment column = true)
    (admitted : medium.Admits (table.indexPath column))
    (unfaulted : (⟨.write, table.indexPath column⟩ : Fault) ∉ faults) :
    Runs medium faults (table.writeIndex index) content (.ok ())
      (Function.update content (.index table.name isTable column isColumn)
        (some index.toBytes)) := by
  subst named
  exact (Store.runs_write (.index table.name isTable index.column isColumn) unfaulted admitted
    index.toBytes).onFiles

include admits

/-- A scan over stored rows adds their keys to an index. -/
theorem runs_scanInto {absent : RowId → TableM Unit} {rows : RowId → Row} {column : String}
    {index : IndexTable} {ids : List RowId} (named : index.column = column)
    (unfaulted : ∀ id ∈ ids, (⟨.read, table.rowPath id⟩ : Fault) ∉ faults)
    (stored : ∀ id ∈ ids, ∃ bytes, content (.row table.name isTable id) = some bytes ∧
      Row.ofBytes bytes = .ok (rows id)) :
    Runs medium faults (table.scanInto absent index ids) content
      (.ok (ids.foldl (fun index id => index.insert ((rows id).key column) id) index))
      content := by
  induction ids generalizing index with
  | nil => exact .pure index
  | cons id rest ih =>
      obtain ⟨bytes, found, decoded⟩ := stored id List.mem_cons_self
      have keyed := (Row.scalar_of_ofBytes decoded).keyIn_eq column
      rw [scanInto]
      refine Runs.bind (runs_read isTable admits (unfaulted id List.mem_cons_self) found decoded) ?_
      simp only [named, keyed]
      refine Runs.bind (.pure ((rows id).key column)) ?_
      exact ih named (fun id member => unfaulted id (List.mem_cons_of_mem _ member))
        fun id member => stored id (List.mem_cons_of_mem _ member)

end Table

end TableStore
