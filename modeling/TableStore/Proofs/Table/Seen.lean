/-
# What is seen of a table

Whatever is stored and whichever faults are ordered, an operation that only looks at a table answers
what the store shows, and leaves the store as it is but for the journal. The rows that are listed
are those whose names are, ascending by number; a row or an index is what its file says.
-/

import TableStore.Proofs.Files.Stored
import TableStore.Proofs.Table.Index
import TableStore.Table.Write

namespace TableStore

namespace Store

variable (store : Store)

/-- What listing a directory answers. -/
def listed (store : Store) (directory : String) : Except FileError (List String) :=
  if store.faults.contains ⟨.list, directory⟩ then .error (.io directory .injected)
  else store.files.list directory

/-- Listing changes nothing. -/
theorem run_list (directory : String) :
    (list directory).run.run store = (store.listed directory, store) := by
  rw [list, run_checked, listed]
  split <;> rfl

/-- Reading changes nothing. -/
theorem run_read (path : String) :
    (read path).run.run store =
      (if store.faults.contains ⟨.read, path⟩ then .error (.io path .injected)
        else store.files.read path, store) := by
  rw [read, run_checked]
  split <;> rfl

/-- What is listed is what the files list. -/
theorem list_of_listed {store : Store} {directory : String} {names : List String}
    (listed : store.listed directory = .ok names) : store.files.list directory = .ok names := by
  rw [Store.listed] at listed
  split at listed
  · cases listed
  · exact listed

/-- Without faults, what is listed is what the files list. -/
theorem listed_of_unfaulted {store : Store} (unfaulted : store.faults = []) (directory : String) :
    store.listed directory = store.files.list directory := by
  rw [Store.listed, unfaulted]
  rfl

/-- What writing a file answers, and the files after it. -/
def written (store : Store) (path : String) (bytes : Bytes) : Except FileError Unit × Files :=
  if store.faults.contains ⟨.write, path⟩ then (.error (.io path .injected), store.files)
  else store.files.write path bytes

/-- Without faults, what is written is written to the files. -/
theorem written_of_unfaulted {store : Store} (unfaulted : store.faults = []) (path : String)
    (bytes : Bytes) : store.written path bytes = store.files.write path bytes := by
  rw [Store.written, unfaulted]
  rfl

/-- Writing changes the files only. -/
theorem run_write (path : String) (bytes : Bytes) :
    (write path bytes).run.run store =
      ((store.written path bytes).1, { store with files := (store.written path bytes).2 }) := by
  rw [write, run_checked, written]
  split <;> rfl

end Store

/-- Asking for a file that may be missing leaves what asking for it leaves. -/
theorem TableM.run_onFiles? {α : Type} (operation : StoreM FileError α) (store : Store) :
    (onFiles? operation).run.run store =
      (found? (operation.run.run store).1, (operation.run.run store).2) := by
  change ((operation.run >>= fun outcome : Except FileError α => _) : StateM Store _).run store = _
  rw [StateT.run_bind]
  change _ = (found? (StateT.run operation.run store).1, (StateT.run operation.run store).2)
  rcases operation.run.run store with ⟨(_ | _) | _, after⟩ <;> rfl

namespace Table

variable {table : Table} {store later : Store} {id other : RowId} {row : Row}

/-- Among names, all identifiers are found, and the others are reported. -/
theorem run_identify (table : Table) (names : List String) (store : Store) :
    ∃ journal, (table.identify names).run store =
      (names.filterMap RowId.ofFileName?, { store with journal }) := by
  induction names generalizing store with
  | nil => exact ⟨store.journal, rfl⟩
  | cons name rest ih =>
      rw [identify]
      cases named : RowId.ofFileName? name with
      | some id =>
          obtain ⟨journal, found⟩ := ih store
          refine ⟨journal, ?_⟩
          rw [List.filterMap_cons_some named]
          change
            ((table.identify rest >>= fun ids => pure (id :: ids)) : StateM Store _).run store = _
          rw [StateT.run_bind, found]
          rfl
      | none =>
          rw [List.filterMap_cons_none named]
          exact ih { store with journal := store.journal ++ [.foreignFile table.name name] }

/-- Listing the rows answers those whose names are listed. -/
theorem run_rowIds (table : Table) (store : Store) :
    ∃ journal, table.rowIds.run.run store =
      (((store.listed table.rowDirectory).mapError .files).map identified,
        { store with journal }) := by
  rw [rowIds, Store.run_bind, TableM.onFiles, Store.run_adapt, Store.run_list]
  cases store.listed table.rowDirectory with
  | error error => exact ⟨store.journal, rfl⟩
  | ok names =>
      obtain ⟨journal, found⟩ := table.run_identify names store
      refine ⟨journal, ?_⟩
      change (Except.ok <$> (fun ids : List RowId => ids.mergeSort _) <$>
        table.identify names : StateM Store _).run store = _
      rw [StateT.run_map, StateT.run_map, found]
      rfl

/-- A table has no rows if none of the names that are listed is that of a row. -/
theorem run_rowIds_of_none {table : Table} {store : Store} (unfaulted : store.faults = [])
    (none : (store.files.list table.rowDirectory).map identified = .ok []) :
    ∃ journal, table.rowIds.run.run store = (.ok [], { store with journal }) := by
  obtain ⟨journal, runs⟩ := table.run_rowIds store
  refine ⟨journal, runs.trans ?_⟩
  rw [Store.listed_of_unfaulted unfaulted]
  cases listed : store.files.list table.rowDirectory with
  | error error =>
      rw [listed] at none
      cases none
  | ok names =>
      rw [listed] at none
      have same : identified names = [] := Except.ok.inj none
      exact congrArg (fun ids => (Except.ok ids, _)) same

/-- Listing the columns with an index answers those that index files are named for. -/
theorem run_indexColumns (table : Table) (store : Store) :
    table.indexColumns.run.run store =
      (((store.listed table.indexDirectory).mapError .files).map (·.filterMap FileName.stem?),
        store) := by
  rw [indexColumns, Store.run_return, TableM.onFiles, Store.run_adapt, Store.run_list]

/-- What the file of a row says about it. -/
def parsed (table : Table) (id : RowId) :
    Except TableError (Option Bytes) → Except TableError (Option Row)
  | .ok (some bytes) =>
      match Row.ofBytes bytes with
      | .ok row => .ok (some row)
      | .error flaw => .error (.corrupted (table.rowPath id) flaw)
  | .ok none => .ok none
  | .error error => .error error

/-- What reading a row answers. -/
def seen (table : Table) (store : Store) (id : RowId) : Except TableError (Option Row) :=
  table.parsed id <| TableM.found? <|
    if store.faults.contains ⟨.read, table.rowPath id⟩ then
      .error (.io (table.rowPath id) .injected)
    else store.files.read (table.rowPath id)

/-- Reading a row changes nothing. -/
theorem run_read (table : Table) (store : Store) (id : RowId) :
    (table.read id).run.run store = (table.seen store id, store) := by
  rw [read, Store.run_bind, TableM.run_onFiles?, Store.run_read, seen]
  rcases TableM.found? _ with error | (_ | bytes)
  · rfl
  · rfl
  · change (match Row.ofBytes bytes with
      | .ok row => _
      | .error flaw => _ : TableM (Option Row)).run.run store = _
    rw [parsed]
    cases Row.ofBytes bytes <;> rfl

/-- A row that is seen is found. -/
theorem run_require (seen : table.seen store id = .ok (some row)) :
    (table.require id).run.run store = (.ok row, store) := by
  rw [require, Store.run_bind, run_read, seen]
  rfl

/-- A row is seen as before as long as its file is read as before. -/
theorem seen_congr (faults : later.faults = store.faults)
    (file : later.files.read (table.rowPath id) = store.files.read (table.rowPath id)) :
    table.seen later id = table.seen store id := by
  rw [seen, seen, faults, file]

/-- The file of a row that is seen has been read. -/
theorem read_of_seen (seen : table.seen store id = .ok (some row)) :
    ∃ bytes, store.files.read (table.rowPath id) = .ok bytes := by
  rw [Table.seen] at seen
  split at seen
  · cases seen
  · rcases outcome : store.files.read (table.rowPath id) with (_ | _) | bytes
    · rw [outcome] at seen
      cases seen
    · rw [outcome] at seen
      cases seen
    · exact ⟨bytes, rfl⟩

/-- A row that is seen has only scalars in it. -/
theorem scalar_of_seen (seen : table.seen store id = .ok (some row)) : row.Scalar := by
  rw [Table.seen] at seen
  generalize TableM.found? _ = file at seen
  rcases file with error | (_ | bytes)
  · cases seen
  · cases seen
  · rw [parsed] at seen
    split at seen
    · next decoded =>
        cases seen
        exact Row.scalar_of_ofBytes decoded
    · cases seen

/-- What reading the index on a column answers. -/
def seenIndex (table : Table) (store : Store) (column : String) : Except TableError IndexTable :=
  if !FileName.isSegment column then .error (.indexMissing column)
  else
    match TableM.found? <|
        if store.faults.contains ⟨.read, table.indexPath column⟩ then
          .error (.io (table.indexPath column) .injected)
        else store.files.read (table.indexPath column) with
    | .error error => .error error
    | .ok none => .error (.indexMissing column)
    | .ok (some bytes) =>
        (IndexTable.ofBytes column bytes).mapError (.corrupted (table.indexPath column))

/-- Reading an index changes nothing. -/
theorem run_readIndex (table : Table) (store : Store) (column : String) :
    (table.readIndex column).run.run store = (table.seenIndex store column, store) := by
  rw [readIndex, seenIndex]
  split
  · rfl
  · rw [Store.run_bind, TableM.run_onFiles?, Store.run_read]
    rcases TableM.found? _ with error | (_ | bytes)
    · rfl
    · rfl
    · dsimp only
      cases IndexTable.ofBytes column bytes <;> rfl

/-- Without faults, the index that is seen on a column is what its file says. -/
theorem seenIndex_of_read (unfaulted : store.faults = []) {column : String}
    (isColumn : FileName.isSegment column = true) {bytes : Bytes}
    (file : store.files.read (table.indexPath column) = .ok bytes) :
    table.seenIndex store column =
      (IndexTable.ofBytes column bytes).mapError (.corrupted (table.indexPath column)) := by
  rw [seenIndex, isColumn, unfaulted, file]
  rfl

/-- The index that is seen on a column is one on this column. -/
theorem column_of_seenIndex {column : String} {index : IndexTable}
    (seen : table.seenIndex store column = .ok index) : index.column = column := by
  rw [seenIndex] at seen
  split at seen
  · cases seen
  split at seen
  · cases seen
  · cases seen
  · next bytes _ =>
      cases decoded : IndexTable.ofBytes column bytes with
      | error flaw =>
          rw [decoded] at seen
          cases seen
      | ok found =>
          rw [decoded] at seen
          cases seen
          exact IndexTable.column_of_ofBytes decoded

/-- A scan over rows that are seen adds their keys to an index. -/
theorem run_scanInto {rows : RowId → Row} {column : String} {ids : List RowId}
    (seen : ∀ id ∈ ids, table.seen store id = .ok (some (rows id)))
    (absent : RowId → TableM Unit) (index : IndexTable) (named : index.column = column) :
    (table.scanInto absent index ids).run.run store =
      (.ok (ids.foldl (fun index id => index.insert ((rows id).key column) id) index), store) := by
  induction ids generalizing index with
  | nil => rfl
  | cons id rest ih =>
      have here := seen id List.mem_cons_self
      rw [scanInto, Store.run_bind, run_read, here]
      dsimp only
      rw [named, (scalar_of_seen here).keyIn_eq column]
      exact ih (fun other member => seen other (List.mem_cons_of_mem _ member)) _ named

end Table

end TableStore
