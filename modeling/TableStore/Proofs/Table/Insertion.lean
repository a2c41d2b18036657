/-
# Rows are added, never replaced

Whatever is stored, as long as the directory of rows can be listed: the rows that are listed are
those whose names are there, ascending by number, whatever the order of the names. So the identifier
that an insert takes is above all of them, and nothing that was there is overwritten, wherever the
insert ends.
-/

import TableStore.Proofs.Files.Long
import TableStore.Proofs.Files.Rows
import TableStore.Proofs.Files.Written
import TableStore.Proofs.Parallel.Table
import TableStore.Proofs.Table.Seen

namespace TableStore

namespace Store

variable {store : Store} {path : String} {bytes : Bytes}

/-- A file that is written is read as it was written. -/
theorem read_of_written (written : (store.written path bytes).1 = .ok ()) :
    (store.written path bytes).2.read path = .ok bytes := by
  rw [Store.written] at written ⊢
  split at written
  · cases written
  · next unfaulted =>
      rw [if_neg unfaulted]
      exact Files.read_of_write written

/-- A row that is read stays as it is when another one is written, if this succeeds or not. -/
theorem read_row_of_written {table : String} (isTable : FileName.isSegment table = true)
    {id other : RowId} {stored : Bytes}
    (read : store.files.read (Place.row table isTable id).path = .ok stored) (apart : id ≠ other)
    (bytes : Bytes) :
    (store.written (Place.row table isTable other).path bytes).2.read
      (Place.row table isTable id).path = .ok stored := by
  rw [Store.written]
  split
  · exact read
  · exact Files.read_row_of_write_row isTable read apart bytes

end Store

namespace Table

variable {table : Table} {store : Store} {names : List String} {row : Row} {id other : RowId}

/-- The file of a row that is inserted under an identifier. -/
def insertedFile (table : Table) (id : RowId) (row : Row) : Bytes :=
  (table.withId id row).toBytes table.options.prettyRows

/-- The identifier after the last of a list, or the first if there is none. -/
def after? (ids : List RowId) : Option RowId :=
  match ids.getLast? with
  | none => some .first
  | some last => last.next?

/-- The identifier after ascending ones is greater than all of them. -/
theorem Ascending.lt_of_after? {ids : List RowId} (ascending : Ascending ids)
    (next : after? ids = some id) (member : other ∈ ids) : other.value < id.value := by
  rw [after?] at next
  cases last : ids.getLast? with
  | none =>
      rw [List.getLast?_eq_none_iff.mp last] at member
      cases member
  | some greatest =>
      rw [last] at next
      exact ascending.lt_of_next? last next member

/-- Nothing comes after ascending identifiers exactly if the last one there can be is among
them. -/
theorem Ascending.after?_eq_none_iff {ids : List RowId} (ascending : Ascending ids) :
    after? ids = none ↔ Ledger.lastId ∈ ids := by
  constructor
  · intro noNext
    rw [after?] at noNext
    cases last : ids.getLast? with
    | none =>
        rw [last] at noNext
        cases noNext
    | some greatest =>
        rw [last] at noNext
        dsimp only at noNext
        rw [Ledger.next?_eq] at noNext
        split at noNext
        · next same => exact same ▸ List.mem_of_getLast? last
        · cases noNext
  · intro member
    cases next : after? ids with
    | none => rfl
    | some id =>
        have less := UInt64.lt_iff_toNat_lt.mp (ascending.lt_of_after? next member)
        have most : Ledger.lastId.value.toNat = 2 ^ 64 - 1 := rfl
        have bound := id.value.toNat_lt
        omega

/-- The indexes come after the file of a row that is stored. -/
theorem run_persist (table : Table) (id : RowId) (old : Option Row) (new : Row) (store : Store) :
    (table.persist id old (some new)).run.run store =
      let written := store.written (table.rowPath id) (new.toBytes table.options.prettyRows)
      match written.1 with
      | .error error => (.error (.files error), { store with files := written.2 })
      | .ok _ => (table.reindex id old (some new)).run.run { store with files := written.2 } := by
  change (TableM.onFiles (Store.write (table.rowPath id) (new.toBytes table.options.prettyRows)) >>=
    fun _ => table.reindex id old (some new)).run.run store = _
  rw [Store.run_bind, TableM.onFiles, Store.run_adapt, Store.run_write]
  dsimp only
  cases (store.written _ _).1 <;> rfl

/-- Whether an operation does not fail for want of an identifier. -/
def NeverExhausts {α : Type} (operation : TableM α) : Prop :=
  ∀ store, (operation.run.run store).1 ≠ .error .idSpaceExhausted

namespace NeverExhausts

variable {α β : Type}

/-- An answer is no failure. -/
theorem pure (answer : α) : NeverExhausts (Pure.pure answer) :=
  fun _ => nofun

/-- One operation after another. -/
theorem bind {operation : TableM α} {next : α → TableM β} (first : NeverExhausts operation)
    (others : ∀ answer, NeverExhausts (next answer)) : NeverExhausts (operation >>= next) := by
  intro store
  have here := first store
  rw [Store.run_bind]
  rcases ran : operation.run.run store with ⟨error | answer, left⟩
  · rw [ran] at here
    exact fun same => here (congrArg Except.error (Except.error.inj same))
  · exact others answer left

/-- A report is no failure. -/
theorem report (event : Event) : NeverExhausts (liftM (Store.report event) : TableM Unit) :=
  fun _ => nofun

/-- A failure of the files is another one. -/
theorem onFiles (operation : StoreM FileError α) : NeverExhausts (TableM.onFiles operation) := by
  intro store
  rw [TableM.onFiles, Store.run_adapt]
  rcases operation.run.run store with ⟨_ | _, left⟩ <;> (intro same; cases same)

/-- Reading an index fails for other reasons. -/
theorem readIndex (table : Table) (column : String) : NeverExhausts (table.readIndex column) := by
  intro store same
  rw [run_readIndex, seenIndex] at same
  split at same
  · cases same
  · split at same
    · next found =>
        rw [TableM.found?.eq_def] at found
        split at found <;> cases found
        cases same
    · cases same
    · cases ofBytes : IndexTable.ofBytes _ _ <;> (rw [ofBytes] at same; cases same)

/-- A key is missing for another reason. -/
theorem mapM_keyIn (row? : Option Row) (column : String) :
    NeverExhausts (row?.mapM fun row => MonadExcept.ofExcept (keyIn column row)) := by
  cases row? with
  | none => exact .pure none
  | some row =>
      rw [Option.mapM_some, keyIn]
      refine .bind ?_ fun key => .pure (some key)
      cases IndexKey.ofJson? (row.value column) with
      | none =>
          intro store same
          cases same
      | some key => exact .pure key

/-- Moving a row in an index. -/
theorem moveInIndex (table : Table) (id : RowId) (old new : Option Row) (column : String) :
    NeverExhausts (table.moveInIndex id old new column) := by
  have stored : ∀ index, NeverExhausts (do table.writeIndex index; return true) :=
    fun index => .bind (.onFiles _) fun _ => .pure true
  rw [Table.moveInIndex]
  refine .bind (mapM_keyIn old column) fun oldKey => .bind (mapM_keyIn new column) fun newKey => ?_
  split
  · exact .pure false
  refine .bind (.readIndex table column) fun index => ?_
  cases oldKey with
  | none => exact stored _
  | some key =>
      by_cases missing : index.contains key id = true
      · simp only [IndexTable.remove_eq, missing, Bool.not_true, Bool.false_eq_true, if_false]
        exact stored _
      · simp only [IndexTable.remove_eq, missing, Bool.not_false, if_true]
        exact .bind (.report _) fun _ => stored _

/-- Moving a row in several indexes. -/
theorem moveInIndexes (table : Table) (id : RowId) (old new : Option Row) (columns : List String) :
    NeverExhausts (table.moveInIndexes id old new columns) := by
  induction columns with
  | nil => exact .pure 0
  | cons column rest ih =>
      exact .bind (.moveInIndex table id old new column) fun moved => .bind ih fun others => .pure _

/-- Moving a row in all indexes that are listed. -/
theorem reindex (table : Table) (id : RowId) (old new : Option Row) :
    NeverExhausts (table.reindex id old new) :=
  .bind (.bind (.onFiles _) fun _ => .pure _) fun columns =>
    .bind (.moveInIndexes table id old new columns) fun _ => .report _

end NeverExhausts

/-- A row that is read stays as it is while indexes are stored. -/
theorem read_reindex (isTable : FileName.isSegment table.name = true) {stored : Bytes}
    (read : store.files.read (table.rowPath other) = .ok stored) (id : RowId)
    (old new : Option Row) :
    ((table.reindex id old new).run.run store).2.files.read (table.rowPath other) =
      .ok stored := by
  have maintained : table.Maintained
      (Files.Same fun files => files.read (table.rowPath other) = .ok stored) fun _ => True :=
    table.maintained_same fun files bytes column isColumn read =>
      Files.read_row_of_write_index isTable read isColumn bytes
  exact (maintained.tries_reindex id old new store store (.refl ⟨rfl, read⟩)).2.2.files.2

section

variable (scalar : row.firstComposite? = none)
  (listed : store.listed table.rowDirectory = .ok names)

include listed in
/-- The fresh identifier is the one after those whose names are listed. -/
theorem run_freshId :
    ∃ journal, table.freshId.run.run store =
      (match after? (identified names) with
        | none => .error .idSpaceExhausted
        | some id => .ok id, { store with journal }) := by
  obtain ⟨journal, found⟩ := table.run_rowIds store
  rw [listed] at found
  have ran : table.rowIds.run.run store = (.ok (identified names), { store with journal }) := found
  refine ⟨journal, ?_⟩
  rw [freshId, Store.run_bind_of_ok ran, after?]
  cases (identified names).getLast? with
  | none => rfl
  | some last =>
      dsimp only
      cases last.next? <;> rfl

include scalar listed

/-- Without an identifier after those that are listed, nothing is written. -/
theorem run_insert_of_none (noNext : after? (identified names) = none) :
    ∃ journal, (table.insert row).run.run store =
      (.error .idSpaceExhausted, { store with journal }) := by
  obtain ⟨journal, fresh⟩ := run_freshId listed
  rw [noNext] at fresh
  have checked : (checkScalars row).run.run store = (.ok (), store) := by
    rw [run_checkScalars, scalar]
  exact ⟨journal, by rw [insert, Store.run_bind_of_ok checked, Store.run_bind_of_error fresh]⟩

/-- The file of the row is written first, under the identifier after those that are listed, and what
happens to the indexes then has no part in it. -/
theorem run_insert_of_some (next : after? (identified names) = some id) :
    ∃ journal,
      let written := store.written (table.rowPath id) (table.insertedFile id row)
      let left : Store := { store with files := written.2, journal }
      (table.insert row).run.run store =
        match written.1 with
        | .error error => (.error (.files error), left)
        | .ok _ =>
            let ended := (table.reindex id none (some (table.withId id row))).run.run left
            (ended.1.map fun _ => id, ended.2) := by
  obtain ⟨journal, fresh⟩ := run_freshId listed
  rw [next] at fresh
  have checked : (checkScalars row).run.run store = (.ok (), store) := by
    rw [run_checkScalars, scalar]
  refine ⟨journal, ?_⟩
  have persisted : (table.persist id none (some (table.withId id row))).run.run
      { store with journal } =
        let written := store.written (table.rowPath id) (table.insertedFile id row)
        let left : Store := { store with files := written.2, journal }
        match written.1 with
        | .error error => (.error (.files error), left)
        | .ok _ => (table.reindex id none (some (table.withId id row))).run.run left :=
    run_persist table id none _ _
  rw [insert, Store.run_bind_of_ok checked, Store.run_bind_of_ok fresh, Store.run_return, persisted]
  dsimp only
  cases (store.written (table.rowPath id) (table.insertedFile id row)).1 <;> rfl

end

/-- What inserting a row does to a store in which the directory of rows lists these names. -/
structure InsertsAbove (table : Table) (store : Store) (names : List String) (row : Row) :
    Prop where
  /-- It fails for want of an identifier exactly if the last one is taken. -/
  exhausted : ((table.insert row).run.run store).1 = .error .idSpaceExhausted ↔
    Ledger.lastId.fileName ∈ names
  /-- Then it writes nothing. -/
  unchanged : Ledger.lastId.fileName ∈ names →
    ((table.insert row).run.run store).2.files = store.files
  /-- Otherwise there is an identifier above all that are listed, without a file. If the file of its
  row cannot be written, this is why the insert fails. If it can, it is what was written, even if
  the insert fails later, and nothing else is answered than this identifier. -/
  above : Ledger.lastId.fileName ∉ names → ∃ id,
    (∀ other : RowId, other.fileName ∈ names → other.value < id.value) ∧
    id.fileName ∉ names ∧ store.files.isFile (table.rowPath id) = false ∧
    let written := (Store.write (table.rowPath id) (table.insertedFile id row)).run.run store
    let inserted := (table.insert row).run.run store
    (∀ error, written.1 = .error error →
      inserted.1 = .error (.files error) ∧ inserted.2.files = written.2.files) ∧
    (written.1 = .ok () →
      inserted.2.files.read (table.rowPath id) = .ok (table.insertedFile id row) ∧
        ∀ answer, inserted.1 = .ok answer → answer = id)
  /-- No row file that is there is overwritten, wherever the insert ends. -/
  kept : ∀ id bytes, store.files.read (table.rowPath id) = .ok bytes →
    ((table.insert row).run.run store).2.files.read (table.rowPath id) = .ok bytes

section

variable (isTable : FileName.isSegment table.name = true) (scalar : row.firstComposite? = none)
  (listed : store.listed table.rowDirectory = .ok names)

include listed

/-- The identifiers whose names are listed ascend. -/
theorem ascending_of_listed : Ascending (identified names) :=
  ascending_identified (store.files.pairwise_list (Store.list_of_listed listed))

include isTable in
/-- A row whose file can be read is listed. -/
theorem mem_of_read {bytes : Bytes} (read : store.files.read (table.rowPath id) = .ok bytes) :
    id ∈ identified names :=
  mem_identified.mpr (@Files.mem_list_of_isFile _ (.row table.name isTable id) _
    (Store.list_of_listed listed) (Files.isFile_iff.mpr ⟨bytes, read⟩))

include isTable in
/-- The identifier after those that are listed has no file. -/
theorem isFile_of_after? (next : after? (identified names) = some id) :
    store.files.isFile (table.rowPath id) = false := by
  rw [Bool.eq_false_iff]
  intro isFile
  have member : id ∈ identified names := mem_identified.mpr
    (@Files.mem_list_of_isFile _ (.row table.name isTable id) _ (Store.list_of_listed listed)
      isFile)
  exact UInt64.lt_irrefl _ ((ascending_of_listed listed).lt_of_after? next member)

include scalar

/-- Nothing is inserted after the last identifier. -/
theorem insertsAbove_of_none (noNext : after? (identified names) = none) :
    table.InsertsAbove store names row := by
  have last : Ledger.lastId.fileName ∈ names :=
    mem_identified.mp ((ascending_of_listed listed).after?_eq_none_iff.mp noNext)
  obtain ⟨journal, ran⟩ := run_insert_of_none scalar listed noNext
  exact {
    exhausted := iff_of_true (by rw [ran]) last
    unchanged := fun _ => by rw [ran]
    above := fun notLast => absurd last notLast
    kept := fun id bytes read => by rw [ran]; exact read }

variable (next : after? (identified names) = some id)

include next

omit scalar in
/-- An identifier after those that are listed is above all of them and is not the last one. -/
theorem above_of_after? :
    Ledger.lastId.fileName ∉ names ∧ id.fileName ∉ names ∧
      ∀ other : RowId, other.fileName ∈ names → other.value < id.value := by
  have ascending := ascending_of_listed listed
  have greater : ∀ other : RowId, other.fileName ∈ names → other.value < id.value :=
    fun other member => ascending.lt_of_after? next (mem_identified.mpr member)
  refine ⟨fun last => ?_, fun taken => UInt64.lt_irrefl _ (greater id taken), greater⟩
  rw [ascending.after?_eq_none_iff.mpr (mem_identified.mpr last)] at next
  cases next

include isTable

omit scalar in
/-- Rows that are there stay when a row is stored under the identifier after those that are
listed. -/
theorem read_of_after? {bytes : Bytes} (read : store.files.read (table.rowPath other) = .ok bytes)
    (stored : Bytes) :
    (store.written (table.rowPath id) stored).2.read (table.rowPath other) = .ok bytes := by
  have apart : other ≠ id := by
    rintro rfl
    have less := (ascending_of_listed listed).lt_of_after? next (mem_of_read isTable listed read)
    exact UInt64.lt_irrefl _ less
  exact Store.read_row_of_written isTable read apart stored

/-- An insert fails if the file of its row cannot be written. -/
theorem insertsAbove_of_refused {refused : FileError}
    (failed : (store.written (table.rowPath id) (table.insertedFile id row)).1 = .error refused) :
    table.InsertsAbove store names row := by
  obtain ⟨notLast, unlisted, greater⟩ := above_of_after? listed next
  obtain ⟨journal, ran⟩ := run_insert_of_some scalar listed next
  simp only [failed] at ran
  have file := Store.run_write store (table.rowPath id) (table.insertedFile id row)
  rw [failed] at file
  refine ⟨iff_of_false (by rw [ran]; exact nofun) notLast, fun last => absurd last notLast,
    fun _ => ⟨id, greater, unlisted, isFile_of_after? isTable listed next, ?_, ?_⟩, ?_⟩
  · intro error same
    rw [file] at same ⊢
    cases same
    rw [ran]
    exact ⟨rfl, rfl⟩
  · intro same
    rw [file] at same
    cases same
  · intro other bytes read
    rw [ran]
    exact read_of_after? isTable listed next read _

/-- Once the file of its row is written, an insert keeps it, whatever happens to the indexes. -/
theorem insertsAbove_of_written
    (stored : (store.written (table.rowPath id) (table.insertedFile id row)).1 = .ok ()) :
    table.InsertsAbove store names row := by
  obtain ⟨notLast, unlisted, greater⟩ := above_of_after? listed next
  obtain ⟨journal, ran⟩ := run_insert_of_some scalar listed next
  simp only [stored] at ran
  have file := Store.run_write store (table.rowPath id) (table.insertedFile id row)
  have kept : ∀ other bytes, (store.written (table.rowPath id) (table.insertedFile id row)).2.read
        (table.rowPath other) = .ok bytes →
      ((table.insert row).run.run store).2.files.read (table.rowPath other) = .ok bytes := by
    intro other bytes read
    rw [ran]
    exact read_reindex isTable read _ _ _
  have notExhausted : ((table.insert row).run.run store).1 ≠ .error .idSpaceExhausted := by
    have never := NeverExhausts.reindex table id none (some (table.withId id row))
      { store with
        files := (store.written (table.rowPath id) (table.insertedFile id row)).2, journal }
    rw [ran]
    generalize (table.reindex id none _).run.run _ = ended at never
    obtain ⟨outcome, _⟩ := ended
    cases outcome with
    | error error => exact fun same => never (congrArg Except.error (Except.error.inj same))
    | ok _ => exact nofun
  refine ⟨iff_of_false notExhausted notLast, fun last => absurd last notLast,
    fun _ => ⟨id, greater, unlisted, isFile_of_after? isTable listed next, ?_, ?_⟩, ?_⟩
  · intro error same
    rw [file, stored] at same
    cases same
  · intro _
    refine ⟨kept id _ (Store.read_of_written stored), fun answer answered => ?_⟩
    rw [ran] at answered
    generalize (table.reindex id none _).run.run _ = ended at answered
    obtain ⟨outcome, _⟩ := ended
    cases outcome with
    | error error => cases answered
    | ok _ => exact (Except.ok.inj answered).symm
  · intro other bytes read
    exact kept other bytes (read_of_after? isTable listed next read _)

end

/-- Whatever is stored, as long as the directory of rows can be listed: the identifiers that are
listed ascend by number, and are those whose file names are in the directory; and every row of
scalars is inserted above them, or not at all. -/
theorem rowIds_exact_and_insert_above (isTable : FileName.isSegment table.name = true)
    (listed : ((Store.list table.rowDirectory).run.run store).1 = .ok names) :
    (∃ ids, (table.rowIds.run.run store).1 = .ok ids ∧ Ascending ids ∧
      ∀ id : RowId, id ∈ ids ↔ id.fileName ∈ names) ∧
    ∀ row : Row, row.firstComposite? = none → table.InsertsAbove store names row := by
  rw [Store.run_list] at listed
  have seen : store.listed table.rowDirectory = .ok names := listed
  obtain ⟨journal, found⟩ := table.run_rowIds store
  rw [seen] at found
  refine ⟨⟨identified names, by rw [found]; rfl, ascending_of_listed seen, fun id =>
    mem_identified⟩, fun row scalar => ?_⟩
  cases next : after? (identified names) with
  | none => exact insertsAbove_of_none scalar seen next
  | some id =>
      cases outcome : (store.written (table.rowPath id) (table.insertedFile id row)).1 with
      | error refused => exact insertsAbove_of_refused isTable scalar seen next outcome
      | ok _ => exact insertsAbove_of_written isTable scalar seen next outcome

/-- Row files whose names are not in the order of their numbers, and one that no row has. -/
def mixedWidths : Store :=
  .ofFiles (.memory (((MemoryFiles.empty.write "people/rows/9999.json" []).write
    "people/rows/10000.json" []).write "people/rows/42.json" []))

/-- The rows of this table are listed by number, and the next one is inserted above both of them. -/
theorem rowIds_exact_and_insert_above_mixedWidths :
    let people : Table := ⟨"people", .default⟩
    let names := ["10000.json", "42.json", "9999.json"]
    (∃ ids, (people.rowIds.run.run mixedWidths).1 = .ok ids ∧ Ascending ids ∧
      ∀ id : RowId, id ∈ ids ↔ id.fileName ∈ names) ∧
    people.InsertsAbove mixedWidths names .empty := by
  intro people names
  have listed : ((Store.list people.rowDirectory).run.run mixedWidths).1 = .ok names := by
    decide +kernel
  obtain ⟨exact, above⟩ := @rowIds_exact_and_insert_above people _ names (by decide) listed
  exact ⟨exact, above .empty rfl⟩

/-- Nothing is inserted into a table whose name is too long for a directory. -/
theorem insert_of_long (isTable : FileName.isSegment table.name = true)
    (long : Disk.nameLimit < table.name.utf8ByteSize) (scalar : row.firstComposite? = none)
    {tree : Disk} {root : String} (rooted : tree.Rooted root)
    (files : store.files = .disk tree root) (unfaulted : store.faults = [])
    (listed : store.listed table.rowDirectory = .ok []) :
    ((table.insert row).run.run store).1 =
        .error (.files (.io (table.rowPath .first) (.host .nameTooLong))) ∧
      ∀ id, ((table.insert row).run.run store).2.files.isFile (table.rowPath id) = false := by
  have next : after? (identified []) = some .first := by simp [after?, identified]
  obtain ⟨journal, ran⟩ := run_insert_of_some scalar listed next
  obtain ⟨left, refused, alsoRooted⟩ := Files.write_of_long rooted
    (.row table.name isTable .first) long (table.insertedFile .first row)
  rw [← files, ← Store.written_of_unfaulted unfaulted, Place.path_row] at refused
  simp only [refused] at ran
  rw [ran]
  exact ⟨rfl, fun id => Files.isFile_of_long alsoRooted (.row table.name isTable id) long⟩

/-- A table whose name is too long for a directory lists no rows as long as there is no root, but no
row can be inserted: neither are the identifiers exhausted, nor is any row file written. -/
theorem insert_of_longName :
    let long : Table := ⟨longName 255, .default⟩
    let store : Store := .ofFiles (.disk .empty "data")
    let inserted := (long.insert .empty).run.run store
    FileName.isSegment long.name = true ∧ Row.empty.firstComposite? = none ∧
      ((Store.list long.rowDirectory).run.run store).1 = .ok [] ∧
      inserted.1 = .error (.files (.io (long.rowPath .first) (.host .nameTooLong))) ∧
      ∀ id, inserted.2.files.isFile (long.rowPath id) = false := by
  have isTable := isSegment_longName 255
  have size := utf8ByteSize_longName 255
  generalize longName 255 = name at isTable size ⊢
  intro long store inserted
  have isLong : Disk.nameLimit < long.name.utf8ByteSize := by
    rw [size]
    decide
  have missing : Disk.empty.node? (Disk.empty.base "data") = none := Disk.node?_empty (by decide)
  have listed : store.listed long.rowDirectory = .ok [] := by
    rw [Store.listed_of_unfaulted rfl]
    change Files.list (Area.rows.directory long.name) (.disk .empty "data") = _
    rw [Files.list_of_long Disk.rooted_data isTable isLong .rows
      (HostPath.isTooLong_rowDirectory size), if_pos missing]
  obtain ⟨refused, noFile⟩ := @insert_of_long long store .empty isTable isLong rfl _ _
    Disk.rooted_data rfl rfl listed
  rw [Store.run_list]
  exact ⟨isTable, rfl, listed, refused, noFile⟩

end Table

end TableStore
