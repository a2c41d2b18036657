/-
# Tables on two stores

What the operations on a table need of related files: its rows and the indexes on columns that are
known to be accessible. A column becomes known by the listing of the index files or by a probe, so
no operation reads or writes an index that was neither found nor asked for by name.
-/

import TableStore.Proofs.Files.Stored
import TableStore.Proofs.Index.File
import TableStore.Proofs.Parallel.Basic
import TableStore.Proofs.Table.Machine
import TableStore.Proofs.Table.Seen
import TableStore.Table.Write

namespace TableStore

/-- The column whose index a call adds or removes. -/
def Call.column? : Call → Option String
  | .addIndex column | .removeIndex column => some column
  | _ => none

namespace Table

/-- Whether related files show the same of a table, as far as its indexes on known columns go. A
column with an index that is found is known. -/
structure Visible (relation : Files → Files → Prop) (known : String → Prop) (table : Table) :
    Prop where
  row : ∀ id, Files.Shown relation (Files.read (table.rowPath id)) anything
  rows : Files.Shown relation (fun files => (files.list table.rowDirectory).map identified) anything
  isFile : ∀ column, FileName.isSegment column = true →
    Files.Shown relation (Files.isFile (table.indexPath column)) fun found =>
      found = true → known column
  index : ∀ column, FileName.isSegment column = true → known column →
    Files.Shown relation (Files.read (table.indexPath column)) anything

/-- Whether the indexes of a table are listed and stored anew in parallel. -/
structure Maintained (relation : Files → Files → Prop) (known : String → Prop) (table : Table) :
    Prop where
  indexes : Files.Shown relation (Files.list table.indexDirectory) fun outcome =>
    ∀ names, outcome = .ok names → ∀ column, FileName.ofStem column ∈ names →
      FileName.isSegment column = true → known column
  index : ∀ column, FileName.isSegment column = true → known column →
    Files.Shown relation (Files.read (table.indexPath column)) anything
  writeIndex : ∀ column bytes, FileName.isSegment column = true → known column →
    Files.Changed relation (Files.write (table.indexPath column) bytes)

/-- Whether the file of a row is read, written and removed in parallel. -/
structure Writable (relation : Files → Files → Prop) (table : Table) (id : RowId) : Prop where
  row : Files.Shown relation (Files.read (table.rowPath id)) anything
  write : ∀ bytes, Files.Changed relation (Files.write (table.rowPath id) bytes)
  delete : Files.Changed relation (Files.delete (table.rowPath id))

/-- What is left of putting a row into its file and into the indexes once the file is dealt with. -/
def reindex (table : Table) (id : RowId) (old new : Option Row) : TableM Unit := do
  let columns ← table.indexColumns
  let touched ← table.moveInIndexes id old new columns
  Store.report (.rowPersisted table.name id new.isNone touched)

/-- Every table shows the same in the same files. -/
theorem visible_same (table : Table) (property : Files → Prop) :
    table.Visible (Files.Same property) fun _ => True where
  row _ := Files.Same.shown fun _ _ => trivial
  rows := Files.Same.shown fun _ _ => trivial
  isFile _ _ := Files.Same.shown fun _ _ _ => trivial
  index _ _ _ := Files.Same.shown fun _ _ => trivial

/-- A table is maintained among the same files if storing an index keeps what they have. -/
theorem maintained_same (table : Table) {property : Files → Prop}
    (kept : ∀ column bytes files, FileName.isSegment column = true → property files →
      property (files.write (table.indexPath column) bytes).2) :
    table.Maintained (Files.Same property) fun _ => True where
  indexes := Files.Same.shown fun _ _ _ _ _ _ _ => trivial
  index _ _ _ := Files.Same.shown fun _ _ => trivial
  writeIndex column bytes isColumn _ := Files.Same.changed fun files =>
    kept column bytes files isColumn

/-- Whether everything is done in parallel that operations on a table need which do not remove
it. -/
structure Editable (relation : Files → Files → Prop) (known : String → Prop) (table : Table) :
    Prop extends Visible relation known table, Maintained relation known table where
  writable : ∀ id, Writable relation table id
  deleteIndex : ∀ column, FileName.isSegment column = true → known column →
    Files.Changed relation (Files.delete (table.indexPath column))

/-- A table is edited among the same files if writing and removing its files keeps what they
have. -/
theorem editable_same {table : Table} (isTable : FileName.isSegment table.name = true)
    {property : Files → Prop}
    (written : ∀ (place : Place) bytes files, place.table = table.name → property files →
      property (files.write place.path bytes).2)
    (deleted : ∀ (place : Place) files, place.table = table.name → property files →
      property (files.delete place.path).2) :
    table.Editable (Files.Same property) fun _ => True := by
  have maintained := table.maintained_same fun column bytes files isColumn =>
    written (.index table.name isTable column isColumn) bytes files rfl
  refine ⟨table.visible_same property, maintained.indexes, maintained.writeIndex,
    fun id => ⟨Files.Same.shown fun _ _ => trivial, fun bytes => ?_, ?_⟩,
    fun column isColumn _ => ?_⟩
  · exact Files.Same.changed fun files => written (.row table.name isTable id) bytes files rfl
  · exact Files.Same.changed fun files => deleted (.row table.name isTable id) files rfl
  · exact Files.Same.changed fun files =>
      deleted (.index table.name isTable column isColumn) files rfl

/-- Whether everything that operations on a table need is done in parallel. -/
structure Served (relation : Files → Files → Prop) (known : String → Prop) (table : Table) :
    Prop extends Editable relation known table where
  deleteAll : Files.Changed relation (Files.deleteAll table.name)

variable {relation : Files → Files → Prop} {known : String → Prop} {start : Store}
  {table : Table}

/-- A row is read if its file is. -/
theorem tries_read {id : RowId}
    (shown : Files.Shown relation (Files.read (table.rowPath id)) anything) :
    Tries relation start (table.read id) anything := by
  refine (Store.tries_read shown).onFiles?.bind fun bytes? _ => ?_
  cases bytes? with
  | none => exact .pure trivial
  | some bytes =>
      simp only []
      cases Row.ofBytes bytes with
      | ok row => exact .pure trivial
      | error flaw => exact .throw _

/-- The absence of an identifier from a scan ends it or is passed over. -/
theorem tries_scanInto (rows : ∀ id, Files.Shown relation (Files.read (table.rowPath id)) anything)
    {absent : RowId → TableM Unit} (passes : ∀ id, Tries relation start (absent id) anything)
    (index : IndexTable) (ids : List RowId) :
    Tries relation start (table.scanInto absent index ids) fun built =>
      built.column = index.column := by
  induction ids generalizing index with
  | nil => exact .pure rfl
  | cons id rest ih =>
      rw [scanInto]
      refine (tries_read (rows id)).bind fun row? _ => ?_
      cases row? with
      | none => exact (passes id).bind fun _ _ => ih index
      | some row =>
          refine Tries.bind (.ofExcept fun _ _ => trivial : Tries relation start
            (MonadExcept.ofExcept (keyIn index.column row)) anything) fun key _ => ?_
          exact ih (index.insert key id)

/-- Rows with an array or an object are refused, and nothing changes. -/
theorem run_checkScalars (row : Row) (store : Store) :
    (checkScalars row).run.run store =
      match row.firstComposite? with
      | some column => (.error (.invalidValue column), store)
      | none => (.ok (), store) := by
  rw [checkScalars]
  cases row.firstComposite? <;> rfl

/-- A row without arrays and objects is stored, and any other refused. -/
theorem tries_checkScalars (row : Row) : Tries relation start (checkScalars row) anything := by
  rw [checkScalars]
  cases row.firstComposite? with
  | none => exact .pure trivial
  | some column => exact .throw _

/-- The comparison of two indexes does not look at the files. -/
theorem tries_checkWithin (index other : IndexTable) :
    Tries relation start (checkWithin index other) anything := by
  rw [checkWithin]
  cases index.firstMissing? other with
  | none => exact .pure trivial
  | some posting => exact .throw _

/-- A known index is read, and is on the column that was asked for. -/
theorem tries_readIndex {column : String}
    (shown : FileName.isSegment column = true →
      Files.Shown relation (Files.read (table.indexPath column)) anything) :
    Tries relation start (table.readIndex column) fun index =>
      index.column = column ∧ FileName.isSegment column = true := by
  rw [readIndex]
  by_cases isColumn : FileName.isSegment column = true
  · simp only [isColumn, Bool.not_true, Bool.false_eq_true, if_false]
    refine (Store.tries_read (shown isColumn)).onFiles?.bind fun bytes? _ => ?_
    cases bytes? with
    | none => exact .throw _
    | some bytes =>
        simp only []
        cases decoded : IndexTable.ofBytes column bytes with
        | ok index => exact .pure ⟨IndexTable.column_of_ofBytes decoded, trivial⟩
        | error flaw => exact .throw _
  · simp only [isColumn, Bool.not_false, if_true]
    exact .throw _

/-- An index is stored if its file is written. -/
theorem tries_writeIndex {index : IndexTable}
    (written : ∀ bytes, Files.Changed relation (Files.write (table.indexPath index.column) bytes)) :
    Tries relation start (table.writeIndex index) anything :=
  (Store.tries_write (written index.toBytes)).adapt TableError.files

/-- An index is stored with one more row, or as it is. -/
theorem tries_writeMoved (id : RowId) (newKey : Option IndexKey) {index : IndexTable}
    (written : ∀ bytes, Files.Changed relation (Files.write (table.indexPath index.column) bytes)) :
    Tries relation start
      (do
        table.writeIndex (match newKey with
          | some key => index.insert key id
          | none => index)
        return true) anything := by
  refine Tries.andThen ?_ fun _ => .pure trivial
  cases newKey with
  | none => exact tries_writeIndex written
  | some key => exact @tries_writeIndex _ start _ (index.insert key id) written

/-- A row is moved in an index if its file is read and written. -/
theorem tries_moveInIndex (id : RowId) (old new : Option Row) {column : String}
    (shown : FileName.isSegment column = true →
      Files.Shown relation (Files.read (table.indexPath column)) anything)
    (written : FileName.isSegment column = true → ∀ bytes,
      Files.Changed relation (Files.write (table.indexPath column) bytes)) :
    Tries relation start (table.moveInIndex id old new column) anything := by
  have key : ∀ row? : Option Row, Tries relation start
      (row?.mapM fun row => MonadExcept.ofExcept (keyIn column row) : TableM _) anything := by
    intro row?
    cases row? with
    | none => exact .pure trivial
    | some row => exact (Tries.ofExcept fun _ _ => trivial).bind fun _ _ => .pure trivial
  rw [moveInIndex]
  refine (key old).bind fun oldKey _ => (key new).bind fun newKey _ => ?_
  by_cases same : oldKey = newKey
  · rw [if_pos same]
    exact .pure trivial
  rw [if_neg same]
  refine (tries_readIndex shown).bind ?_
  rintro index ⟨rfl, isColumn⟩
  have stored := fun (without : IndexTable) (named : without.column = index.column) =>
    @tries_writeMoved _ start _ id newKey without (named ▸ written isColumn)
  cases oldKey with
  | none => exact stored index rfl
  | some old =>
      by_cases missing : index.contains old id = true
      · simp only [IndexTable.remove_eq, missing, Bool.not_true, Bool.false_eq_true, if_false]
        exact stored (index.erase old id) rfl
      · simp only [IndexTable.remove_eq, missing, Bool.not_false, if_true]
        exact (Tries.report _).bind fun _ _ => stored (index.erase old id) rfl

/-- A row is moved in one index after another. -/
theorem tries_moveInIndexes {id : RowId} {old new : Option Row} {columns : List String}
    (moved : ∀ column ∈ columns,
      Tries relation start (table.moveInIndex id old new column) anything) :
    Tries relation start (table.moveInIndexes id old new columns) anything := by
  induction columns with
  | nil => exact .pure trivial
  | cons column rest ih =>
      have others := ih fun column member => moved column (List.mem_cons_of_mem _ member)
      refine (moved column List.mem_cons_self).bind fun moved _ => ?_
      exact others.bind fun _ _ => .pure trivial

namespace Visible

variable (visible : table.Visible relation known)

include visible

/-- The rows are listed. -/
theorem tries_rowIds : Tries relation start table.rowIds Ascending := by
  intro first second related
  obtain ⟨journal, runs⟩ := table.run_rowIds first
  obtain ⟨alsoJournal, alsoRuns⟩ := table.run_rowIds second
  have same : (first.listed table.rowDirectory).map identified =
      (second.listed table.rowDirectory).map identified := by
    rw [Store.listed, Store.listed, related.faults, related.sameFaults]
    split
    · rfl
    · exact (visible.rows _ _ related.files).1
  have commutes : ∀ outcome : Except FileError (List String),
      (outcome.mapError TableError.files).map identified =
        (outcome.map identified).mapError TableError.files := by rintro (error | names) <;> rfl
  rw [runs, alsoRuns, commutes, commutes, same]
  refine ⟨rfl, fun ids answered => ?_, related.files, related.faults, related.sameFaults,
    related.probes, related.isLeft⟩
  dsimp only at answered
  rw [← same] at answered
  cases listed : first.listed table.rowDirectory with
  | error error =>
      rw [listed] at answered
      cases answered
  | ok names =>
      rw [listed] at answered
      cases answered
      exact ascending_identified (first.files.pairwise_list (Store.list_of_listed listed))

/-- A column with an index is known. -/
theorem parallel_hasIndex (column : String) :
    Parallel relation start (table.hasIndex column) fun found => found = true →
      FileName.isSegment column = true ∧ known column := by
  rw [hasIndex]
  by_cases isColumn : FileName.isSegment column = true
  · simp only [isColumn, Bool.not_true, Bool.false_eq_true, if_false]
    refine Parallel.bind (Store.tries_isFile (visible.isFile column isColumn))
      fun outcome stated => ?_
    cases outcome with
    | ok found => exact .pure fun isFound => ⟨trivial, stated found rfl isFound⟩
    | error error =>
        refine (Parallel.report _).bind fun _ _ => .pure fun impossible => ?_
        cases impossible
  · simp only [isColumn, Bool.not_false, if_true]
    exact .pure fun impossible => nomatch impossible

/-- An index is checked against the rows. -/
theorem tries_verifyIndex (ids : List RowId) {column : String}
    (isKnown : FileName.isSegment column = true → known column) :
    Tries relation start (table.verifyIndex ids column) anything := by
  refine (tries_readIndex fun isColumn =>
    visible.index column isColumn (isKnown isColumn)).bind fun index _ => ?_
  refine (tries_scanInto visible.row (fun _ => .throw _) _ ids).bind fun expected _ => ?_
  exact (tries_checkWithin index expected).bind fun _ _ => tries_checkWithin expected index

end Visible

namespace Maintained

variable (maintained : table.Maintained relation known)

include maintained

/-- The columns that are listed are known. -/
theorem tries_indexColumns : Tries relation start table.indexColumns fun columns =>
    ∀ column ∈ columns, FileName.isSegment column = true → known column := by
  refine ((Store.tries_list maintained.indexes).adapt TableError.files).bind
    fun names stated => .pure ?_
  intro column member
  obtain ⟨name, listed, stem⟩ := List.mem_filterMap.mp member
  exact stated column (FileName.stem?_eq_some_iff.mp stem ▸ listed)

/-- A row is moved in known indexes. -/
theorem tries_moveInIndexes (id : RowId) (old new : Option Row) {columns : List String}
    (areKnown : ∀ column ∈ columns, FileName.isSegment column = true → known column) :
    Tries relation start (table.moveInIndexes id old new columns) anything :=
  Table.tries_moveInIndexes fun column member => tries_moveInIndex id old new
    (fun isColumn => maintained.index column isColumn (areKnown column member isColumn))
    fun isColumn bytes =>
      maintained.writeIndex column bytes isColumn (areKnown column member isColumn)

/-- A row is moved in all indexes that are listed. -/
theorem tries_reindex (id : RowId) (old new : Option Row) :
    Tries relation start (table.reindex id old new) anything := by
  refine maintained.tries_indexColumns.bind fun columns areKnown => ?_
  exact (maintained.tries_moveInIndexes id old new areKnown).bind fun _ _ => .report _

variable {id : RowId} (writable : Writable relation table id)

include writable

/-- A row is put into its file and into the indexes. -/
theorem tries_persist (old new : Option Row) :
    Tries relation start (table.persist id old new) anything := by
  refine (Tries.adapt TableError.files ?file).bind fun _ (_ : anything ()) =>
    maintained.tries_reindex id old new
  cases new with
  | none => exact Store.tries_delete writable.delete
  | some row => exact Store.tries_write (writable.write _)

omit maintained in
/-- A row that must be there is read. -/
theorem tries_require : Tries relation start (table.require id) anything := by
  refine (tries_read writable.row).bind fun row? _ => ?_
  cases row? with
  | none => exact .throw _
  | some row => exact .pure trivial

/-- A row is changed. -/
theorem tries_update (changes : Row) : Tries relation start (table.update id changes) anything := by
  refine (tries_checkScalars changes).bind fun _ _ => ?_
  refine (tries_require writable).bind fun old _ => ?_
  exact (maintained.tries_persist writable _ _).bind fun _ _ => .pure trivial

/-- A row is removed. -/
theorem tries_erase : Tries relation start (table.erase id) anything := by
  refine (tries_require writable).bind fun old _ => ?_
  exact (maintained.tries_persist writable _ _).bind fun _ _ => .pure trivial

/-- A row is replaced. -/
theorem tries_write (new : Option Row) : Tries relation start (table.write id new) anything := by
  have replaced : Tries relation start
      (do
        let old ← table.read id
        if old.isNone && new.isNone then return none
        table.persist id old new
        return old) anything := by
    refine (tries_read writable.row).bind fun old _ => ?_
    split
    · exact .pure trivial
    · exact (maintained.tries_persist writable _ _).bind fun _ _ => .pure trivial
  cases new with
  | none => exact replaced
  | some row => exact (tries_checkScalars row).bind fun _ _ => replaced

end Maintained

/-- The table is removed. -/
theorem tries_drop (removed : Files.Changed relation (Files.deleteAll table.name)) :
    Tries relation start table.drop anything :=
  ((Store.tries_deleteAll removed).adapt TableError.files).bind fun _ _ => .report _

namespace Editable

variable (editable : table.Editable relation known)

include editable

/-- A row is stored under a fresh identifier. -/
theorem tries_insert (row : Row) : Tries relation start (table.insert row) anything := by
  refine (tries_checkScalars row).bind fun _ _ => ?_
  refine Tries.andThen ?_ fun id =>
    (editable.tries_persist (editable.writable id) _ _).bind fun _ _ => .pure trivial
  refine editable.tries_rowIds.bind fun ids _ => ?_
  cases ids.getLast? with
  | none => exact .pure trivial
  | some last =>
      simp only []
      cases last.next? with
      | none => exact .throw _
      | some id => exact .pure trivial

/-- An index is built. -/
theorem tries_addIndex {column : String}
    (isKnown : FileName.isSegment column = true → known column) :
    Tries relation start (table.addIndex column) anything := by
  rw [addIndex]
  by_cases isColumn : FileName.isSegment column = true
  · simp only [isColumn, Bool.not_true, Bool.false_eq_true, if_false]
    refine editable.tries_rowIds.bind fun ids _ => ?_
    refine (tries_scanInto editable.row (fun _ => .pure trivial) _ ids).bind fun index named => ?_
    have sameColumn : index.column = column := named
    have written := fun bytes => editable.writeIndex column bytes isColumn (isKnown isColumn)
    exact (tries_writeIndex (sameColumn ▸ written)).bind fun _ _ => .report _
  · simp only [isColumn, Bool.not_false, if_true]
    exact .throw _

/-- An index is removed. -/
theorem tries_removeIndex {column : String}
    (isKnown : FileName.isSegment column = true → known column) :
    Tries relation start (table.removeIndex column) anything := by
  rw [removeIndex]
  by_cases isColumn : FileName.isSegment column = true
  · simp only [isColumn, Bool.not_true, Bool.false_eq_true, if_false]
    refine (Store.tries_delete (editable.deleteIndex column isColumn
      (isKnown isColumn))).onFiles?.bind fun removed? _ => ?_
    cases removed? with
    | none => exact .pure trivial
    | some removed => exact (Tries.report _).bind fun _ _ => .pure trivial
  · simp only [isColumn, Bool.not_false, if_true]
    exact .pure trivial

/-- All indexes are checked. -/
theorem tries_verifyIndexes : Tries relation start table.verifyIndexes anything := by
  refine editable.tries_rowIds.bind fun ids _ => ?_
  refine editable.tries_indexColumns.bind fun columns areKnown => ?_
  induction columns with
  | nil => exact .pure trivial
  | cons column rest ih =>
      refine (editable.toVisible.tries_verifyIndex ids
        (areKnown column List.mem_cons_self)).bind fun _ _ => ?_
      exact ih fun column member => areKnown column (List.mem_cons_of_mem _ member)

/-- A call is carried out if the column that it names is known. -/
theorem tries_perform {call : Call}
    (isKnown : ∀ column, call.column? = some column → FileName.isSegment column = true →
      known column)
    (removed : call = .drop → Files.Changed relation (Files.deleteAll table.name)) :
    Tries relation start (table.perform call) anything := by
  cases call with
  | insert row => exact (editable.tries_insert row).bind fun _ _ => .pure trivial
  | read id => exact (tries_read (editable.row id)).bind fun _ _ => .pure trivial
  | update id changes =>
      exact (editable.tries_update (editable.writable id) changes).bind fun _ _ => .pure trivial
  | erase id => exact (editable.tries_erase (editable.writable id)).bind fun _ _ => .pure trivial
  | write id row? =>
      exact (editable.tries_write (editable.writable id) row?).bind fun _ _ => .pure trivial
  | rowIds => exact editable.tries_rowIds.bind fun _ _ => .pure trivial
  | size =>
      exact Tries.andThen (editable.tries_rowIds.bind fun _ _ => .pure trivial)
        fun _ => .pure trivial
  | addIndex column =>
      exact (editable.tries_addIndex (isKnown column rfl)).bind fun _ _ => .pure trivial
  | removeIndex column =>
      exact (editable.tries_removeIndex (isKnown column rfl)).bind fun _ _ => .pure trivial
  | drop => exact (tries_drop (removed rfl)).bind fun _ _ => .pure trivial

end Editable

end Table

end TableStore
