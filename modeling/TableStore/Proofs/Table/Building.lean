/-
# An index is built as a whole or not at all

Whatever is stored and whichever faults are ordered: if the rows cannot be listed, or one of those
that are listed cannot be read, building an index fails before it writes anything. Otherwise it
writes one file, and this holds every row under its key, whatever it held before. Once it is built,
building it again changes nothing, unless the first time has brought rows into view that were not
seen before.
-/

import TableStore.Proofs.Files.Settled
import TableStore.Proofs.Table.Insertion

namespace TableStore

/-- What an identifier adds to an index: its row under its key, if there is one. -/
def IndexTable.withRow (index : IndexTable) (id : RowId) : Option Row → IndexTable
  | some row => index.insert (row.key index.column) id
  | none => index

/-- An index stays one on its column. -/
@[simp]
theorem IndexTable.column_withRow (index : IndexTable) (id : RowId) (row? : Option Row) :
    (index.withRow id row?).column = index.column := by
  cases row? <;> rfl

/-- An identifier adds the pair of its row and nothing else. -/
theorem IndexTable.contains_withRow {index : IndexTable} {id other : RowId} {row? : Option Row}
    {key : IndexKey} :
    (index.withRow id row?).contains key other = true ↔
      index.contains key other = true ∨
        id = other ∧ ∃ row, row? = some row ∧ row.key index.column = key := by
  cases row? with
  | none => simp [withRow]
  | some row =>
      rw [withRow, contains_insert]
      simp [and_comm, or_comm]

namespace Table

variable {table : Table} {store later : Store} {column : String} {ids : List RowId} {id : RowId}
  {index final : IndexTable}

/-- What a scan over rows answers that passes over identifiers without a row. -/
def scanned (table : Table) (store : Store) (index : IndexTable) :
    List RowId → Except TableError IndexTable
  | [] => .ok index
  | id :: rest =>
      (table.seen store id).bind fun row? => table.scanned store (index.withRow id row?) rest

/-- A scan that passes over identifiers without a row changes nothing. -/
theorem run_scanInto_present (table : Table) (store : Store) (index : IndexTable)
    (ids : List RowId) :
    (table.scanInto (fun _ => return) index ids).run.run store =
      (table.scanned store index ids, store) := by
  induction ids generalizing index with
  | nil => rfl
  | cons id rest ih =>
      rw [scanInto, Store.run_bind, run_read, scanned]
      rcases here : table.seen store id with error | (_ | row)
      · rfl
      · exact ih index
      · dsimp only
        rw [(scalar_of_seen here).keyIn_eq index.column]
        exact ih (index.insert (row.key index.column) id)

/-- A scan adds the rows that are there, each under its key. -/
theorem of_scanned (done : table.scanned store index ids = .ok final) :
    final.column = index.column ∧ ∀ key id, final.contains key id = true ↔
      index.contains key id = true ∨
        id ∈ ids ∧ ∃ row, table.seen store id = .ok (some row) ∧ row.key index.column = key := by
  induction ids generalizing index with
  | nil =>
      cases done
      simp
  | cons first rest ih =>
      rw [scanned] at done
      cases here : table.seen store first with
      | error error =>
          rw [here] at done
          cases done
      | ok row? =>
          rw [here] at done
          obtain ⟨column, members⟩ := ih done
          rw [IndexTable.column_withRow] at column members
          refine ⟨column, fun key id => ?_⟩
          rw [members, IndexTable.contains_withRow, List.mem_cons, or_assoc]
          refine or_congr_right ⟨?_, ?_⟩
          · rintro (⟨rfl, row, rfl, same⟩ | ⟨member, found⟩)
            · exact ⟨.inl rfl, row, here, same⟩
            · exact ⟨.inr member, found⟩
          · rintro ⟨rfl | member, row, found, same⟩
            · exact .inl ⟨rfl, row, Except.ok.inj (here.symm.trans found), same⟩
            · exact .inr ⟨member, row, found, same⟩

/-- A scan over rows that can be read arrives. -/
theorem exists_scanned (readable : ∀ id ∈ ids, ∃ row?, table.seen store id = .ok row?) :
    ∃ final, table.scanned store index ids = .ok final := by
  induction ids generalizing index with
  | nil => exact ⟨index, rfl⟩
  | cons id rest ih =>
      obtain ⟨⟨row?, here⟩, others⟩ := List.forall_mem_cons.mp readable
      rw [scanned, here]
      exact ih others

/-- A scan over a row that cannot be read fails. -/
theorem exists_scanned_error {error : TableError} (member : id ∈ ids)
    (failed : table.seen store id = .error error) :
    ∃ error, table.scanned store index ids = .error error := by
  induction ids generalizing index with
  | nil => cases member
  | cons first rest ih =>
      rw [scanned]
      cases here : table.seen store first with
      | error earlier => exact ⟨earlier, rfl⟩
      | ok row? =>
          have later : id ∈ rest := (List.mem_cons.mp member).resolve_left fun same => by
            cases (same ▸ failed).symm.trans here
          exact ih later

/-- A scan answers the same where the rows are seen alike. -/
theorem scanned_congr (same : ∀ id ∈ ids, table.seen later id = table.seen store id) :
    table.scanned later index ids = table.scanned store index ids := by
  induction ids generalizing index with
  | nil => rfl
  | cons id rest ih =>
      obtain ⟨here, others⟩ := List.forall_mem_cons.mp same
      rw [scanned, scanned, here]
      exact congrArg _ (funext fun row? => ih others)

/-- The index on a column over the rows that are listed, as far as these are there. -/
def overRows (table : Table) (store : Store) (column : String) : Except TableError IndexTable :=
  (table.rowIds.run.run store).1.bind (table.scanned store (.empty column))

/-- Building an index writes the one over the rows to its file, and writes nothing if there is
none. -/
theorem run_addIndex (table : Table) (store : Store) (isColumn : FileName.isSegment column = true) :
    ∃ journal, (table.addIndex column).run.run store =
      match table.overRows store column with
      | .error error => (.error error, { store with journal })
      | .ok index =>
          let written := store.written (table.indexPath column) index.toBytes
          (written.1.mapError .files, { store with files := written.2, journal }) := by
  obtain ⟨journal, found⟩ := table.run_rowIds store
  unfold addIndex
  simp only [isColumn, Bool.not_true, Bool.false_eq_true, if_false]
  rw [overRows, Store.run_bind, found]
  generalize ((store.listed table.rowDirectory).mapError TableError.files).map identified = answer
  cases answer with
  | error error => exact ⟨journal, rfl⟩
  | ok ids =>
      -- What is seen of the rows does not depend on the journal.
      have same : table.scanned { store with journal } (.empty column) ids =
          table.scanned store (.empty column) ids :=
        scanned_congr fun _ _ => rfl
      dsimp only
      rw [Store.run_bind, run_scanInto_present, same, Except.bind]
      cases done : table.scanned store (.empty column) ids with
      | error error => exact ⟨journal, rfl⟩
      | ok index =>
          have named : index.column = column := (of_scanned done).1
          dsimp only
          rw [Store.run_bind, writeIndex, TableM.onFiles, Store.run_adapt, Store.run_write, named]
          have written : ({ store with journal } : Store).written (table.indexPath column)
              index.toBytes = store.written (table.indexPath column) index.toBytes := rfl
          rw [written]
          cases (store.written (table.indexPath column) index.toBytes).1 with
          | error error => exact ⟨journal, rfl⟩
          | ok _ => exact ⟨_, rfl⟩

/-- Whether the rows that a table shows in one store are those it shows in another. -/
def SeesAlike (table : Table) (store later : Store) : Prop :=
  ∀ ids, (table.rowIds.run.run store).1 = .ok ids →
    (table.rowIds.run.run later).1 = .ok ids ∧
      ∀ id ∈ ids, ((table.read id).run.run later).1 = ((table.read id).run.run store).1

/-- What building the index on a column does to a store. -/
structure BuildsWhole (table : Table) (store : Store) (column : String) : Prop where
  /-- Without a list of the rows it fails, and changes nothing. -/
  unlisted : ∀ error, (table.rowIds.run.run store).1 = .error error →
    ((table.addIndex column).run.run store).1 = .error error ∧
      ((table.addIndex column).run.run store).2.files = store.files
  /-- If a listed row is there but cannot be read, it fails, and changes nothing. -/
  unreadable : ∀ ids id error, (table.rowIds.run.run store).1 = .ok ids → id ∈ ids →
    ((table.read id).run.run store).1 = .error error →
    (∃ error, ((table.addIndex column).run.run store).1 = .error error) ∧
      ((table.addIndex column).run.run store).2.files = store.files
  /-- Otherwise it succeeds, and changes no file but that of the index. This holds the rows that are
  there, each under its key, and nothing else. -/
  built : ∀ ids, (table.rowIds.run.run store).1 = .ok ids →
    (∀ id ∈ ids, ∃ row?, ((table.read id).run.run store).1 = .ok row?) →
    ((table.addIndex column).run.run store).1 = .ok () ∧
      Files.ChangesOnly (table.indexPath column) store.files
        ((table.addIndex column).run.run store).2.files ∧
      ∃ bytes index,
        ((table.addIndex column).run.run store).2.files.read (table.indexPath column) = .ok bytes ∧
        IndexTable.ofBytes column bytes = .ok index ∧
        ∀ key id, index.contains key id = true ↔
          ∃ row, ((table.read id).run.run store).1 = .ok (some row) ∧
            IndexKey.ofJson? (row.value column) = some key
  /-- Once more it changes nothing, if the rows are seen as before. -/
  again : ((table.addIndex column).run.run store).1 = .ok () →
    let after := ((table.addIndex column).run.run store).2
    table.SeesAlike store after →
      ((table.addIndex column).run.run after).1 = .ok () ∧
        ((table.addIndex column).run.run after).2.files = after.files
  /-- They are, unless making the root of the files brings others into view. -/
  alike : store.files.Settled → ((table.addIndex column).run.run store).1 = .ok () →
    table.SeesAlike store ((table.addIndex column).run.run store).2

/-- The rows are those whose names are listed. -/
theorem rowIds_of_listed {names : List String}
    (listed : store.listed table.rowDirectory = .ok names) :
    (table.rowIds.run.run store).1 = .ok (identified names) := by
  obtain ⟨journal, found⟩ := table.run_rowIds store
  rw [found, listed]
  rfl

/-- If the rows are listed, so are the names of their files. -/
theorem listed_of_rowIds (answered : (table.rowIds.run.run store).1 = .ok ids) :
    ∃ names, store.listed table.rowDirectory = .ok names ∧ identified names = ids := by
  obtain ⟨journal, found⟩ := table.run_rowIds store
  rw [found] at answered
  cases listed : store.listed table.rowDirectory with
  | error error =>
      rw [listed] at answered
      cases answered
  | ok names =>
      rw [listed] at answered
      exact ⟨names, rfl, Except.ok.inj answered⟩

/-- Without a list of the rows there is no index over them. -/
theorem overRows_of_unlisted {error : TableError}
    (failed : (table.rowIds.run.run store).1 = .error error) :
    table.overRows store column = .error error := by
  rw [overRows, failed]
  rfl

/-- If the rows are listed, the index is the one over them. -/
theorem overRows_of_rowIds (answered : (table.rowIds.run.run store).1 = .ok ids) :
    table.overRows store column = table.scanned store (.empty column) ids := by
  rw [overRows, answered]
  rfl

/-- Where the rows are seen alike, the index over them is the same. -/
theorem overRows_of_seesAlike (alike : table.SeesAlike store later)
    (found : table.overRows store column = .ok index) :
    table.overRows later column = .ok index := by
  cases answered : (table.rowIds.run.run store).1 with
  | error error => cases (overRows_of_unlisted answered).symm.trans found
  | ok ids =>
      obtain ⟨alsoAnswered, read⟩ := alike ids answered
      simp only [run_read] at read
      rw [← found, overRows_of_rowIds answered, overRows_of_rowIds alsoAnswered, scanned_congr read]

/-- Without an index over the rows nothing is written. -/
theorem run_addIndex_of_error (isColumn : FileName.isSegment column = true) {error : TableError}
    (failed : table.overRows store column = .error error) :
    ((table.addIndex column).run.run store).1 = .error error ∧
      ((table.addIndex column).run.run store).2.files = store.files := by
  obtain ⟨journal, ran⟩ := table.run_addIndex store isColumn
  rw [ran, failed]
  exact ⟨rfl, rfl⟩

section

variable (isTable : FileName.isSegment table.name = true)
  (isColumn : FileName.isSegment column = true) {bytes : Bytes}
  (accepted : ((Store.write (table.indexPath column) bytes).run.run store).1 = .ok ())

include accepted in
/-- A store that accepts a file under a path accepts every other one there, and no fault keeps it
from its files. -/
theorem written_of_accepted (others : Bytes) :
    (store.files.write (table.indexPath column) others).1 = .ok () ∧
      ∀ later : Store, later.faults = store.faults →
        later.written (table.indexPath column) others =
          later.files.write (table.indexPath column) others := by
  rw [Store.run_write, Store.written] at accepted
  split at accepted
  · cases accepted
  · next unfaulted =>
      refine ⟨Files.fst_write_eq_ok accepted others, fun later faults => ?_⟩
      rw [Store.written, faults, if_neg unfaulted]

include isColumn accepted in
/-- The index over the rows is written. -/
theorem run_addIndex_of_ok (found : table.overRows store column = .ok index) :
    ∃ journal, (table.addIndex column).run.run store =
      (.ok (), { store with
        files := (store.files.write (table.indexPath column) index.toBytes).2, journal }) := by
  obtain ⟨journal, ran⟩ := table.run_addIndex store isColumn
  obtain ⟨succeeded, written⟩ := written_of_accepted accepted index.toBytes
  refine ⟨journal, ?_⟩
  rw [ran, found]
  dsimp only
  rw [written store rfl, succeeded]
  rfl

include isColumn accepted in
/-- Once the index over the rows is written, building it again changes nothing if the rows are seen
as before. -/
theorem addIndex_again (first : ((table.addIndex column).run.run store).1 = .ok ())
    (alike : table.SeesAlike store ((table.addIndex column).run.run store).2) :
    ((table.addIndex column).run.run ((table.addIndex column).run.run store).2).1 = .ok () ∧
      ((table.addIndex column).run.run ((table.addIndex column).run.run store).2).2.files =
        ((table.addIndex column).run.run store).2.files := by
  cases found : table.overRows store column with
  | error error =>
      rw [(run_addIndex_of_error isColumn found).1] at first
      cases first
  | ok index =>
      obtain ⟨journal, ran⟩ := run_addIndex_of_ok isColumn accepted found
      obtain ⟨succeeded, written⟩ := written_of_accepted accepted index.toBytes
      rw [ran] at alike ⊢
      generalize left : ({ store with
        files := (store.files.write (table.indexPath column) index.toBytes).2, journal } : Store) =
          after at alike ⊢
      have twice : after.files.write (table.indexPath column) index.toBytes =
          (.ok (), after.files) := by
        rw [← left]
        exact Files.write_again succeeded
      have faults : after.faults = store.faults := by rw [← left]
      have acceptedAgain :
          ((Store.write (table.indexPath column) index.toBytes).run.run after).1 = .ok () := by
        rw [Store.run_write, written after faults, twice]
      obtain ⟨later, ranAgain⟩ :=
        run_addIndex_of_ok isColumn acceptedAgain (overRows_of_seesAlike alike found)
      rw [ranAgain]
      exact ⟨rfl, congrArg Prod.snd twice⟩

include isTable in
/-- An index over the rows that are listed holds every row that can be read, and nothing else. -/
theorem contains_of_overRows (answered : (table.rowIds.run.run store).1 = .ok ids)
    (found : table.overRows store column = .ok index) :
    index.column = column ∧ ∀ key id, index.contains key id = true ↔
      ∃ row, ((table.read id).run.run store).1 = .ok (some row) ∧
        IndexKey.ofJson? (row.value column) = some key := by
  obtain ⟨names, listed, rfl⟩ := listed_of_rowIds answered
  obtain ⟨named, members⟩ := of_scanned ((overRows_of_rowIds answered).symm.trans found)
  refine ⟨named, fun key id => ?_⟩
  rw [members, IndexTable.contains_empty, run_read]
  change false = true ∨ _ ∧ (∃ row : Row, _ ∧ row.key column = key) ↔ _
  constructor
  · rintro (nothing | ⟨-, row, seen, rfl⟩)
    · cases nothing
    · exact ⟨row, seen, (scalar_of_seen seen).ofJson?_value column⟩
  · rintro ⟨row, seen, keyed⟩
    obtain ⟨bytes, read⟩ := read_of_seen seen
    refine .inr ⟨mem_of_read isTable listed read, row, seen, ?_⟩
    exact Option.some.inj (((scalar_of_seen seen).ofJson?_value column).symm.trans keyed)

include isTable isColumn accepted

/-- Once the index over the rows of settled files is written, the rows are seen as before. -/
theorem seesAlike_of_written (settled : store.files.Settled) (contents : Bytes)
    (journal : List Event) :
    table.SeesAlike store { store with
      files := (store.files.write (table.indexPath column) contents).2, journal } := by
  intro ids answered
  obtain ⟨names, listed, rfl⟩ := listed_of_rowIds answered
  have written := (written_of_accepted accepted contents).1
  rw [← Place.path_index table isTable column isColumn] at written ⊢
  obtain ⟨alsoListed, read⟩ :=
    Files.showsRows_write_index settled written (Store.list_of_listed listed)
  refine ⟨?_, fun id member => ?_⟩
  · rw [Store.listed] at listed
    split at listed
    · cases listed
    · next unfaulted => exact rowIds_of_listed ((if_neg unfaulted).trans alsoListed)
  · rw [run_read, run_read]
    refine seen_congr rfl ?_
    rw [← Place.path_row table isTable id]
    exact read id (mem_identified.mp member)

/-- Building an index makes it as a whole or not at all, whatever is stored and whichever faults are
ordered, as long as the store accepts the file of the index. -/
theorem addIndex_builds_whole : table.BuildsWhole store column where
  unlisted error failed := run_addIndex_of_error isColumn (overRows_of_unlisted failed)
  unreadable ids id error answered member failed := by
    rw [run_read] at failed
    obtain ⟨earlier, stopped⟩ := exists_scanned_error member failed
    obtain ⟨outcome, kept⟩ :=
      run_addIndex_of_error isColumn ((overRows_of_rowIds answered).trans stopped)
    exact ⟨⟨earlier, outcome⟩, kept⟩
  built ids answered readable := by
    simp only [run_read] at readable
    obtain ⟨index, done⟩ := exists_scanned readable
    have found : table.overRows store column = .ok index := (overRows_of_rowIds answered).trans done
    obtain ⟨named, members⟩ := contains_of_overRows isTable answered found
    obtain ⟨journal, ran⟩ := run_addIndex_of_ok isColumn accepted found
    have written := (written_of_accepted accepted index.toBytes).1
    rw [ran]
    refine ⟨rfl, Files.changesOnly_write written, index.toBytes, index,
      Files.read_of_write written, ?_, members⟩
    have canonical : index.Canonical := by
      intro key id held
      obtain ⟨row, -, keyed⟩ := (members key id).mp held
      exact IndexKey.canonical_of_ofJson? keyed
    rw [← named]
    exact IndexTable.ofBytes_toBytes canonical
  again first alike := addIndex_again isColumn accepted first alike
  alike settled first := by
    cases found : table.overRows store column with
    | error error =>
        rw [(run_addIndex_of_error isColumn found).1] at first
        cases first
    | ok index =>
        obtain ⟨journal, ran⟩ := run_addIndex_of_ok isColumn accepted found
        rw [ran]
        exact seesAlike_of_written isTable isColumn accepted settled index.toBytes journal

end

/-- A table in memory with one person and a damaged index. -/
def damagedIndex : Store :=
  let row := Row.empty.insert "age" (.number (.ofUInt64 1))
  .ofFiles (.memory ((MemoryFiles.empty.write "people/rows/0000.json" (row.toBytes false)).write
    "people/indexes/age.json" []))

/-- Building the damaged index mends it: it holds the one person, and building it again changes
nothing. -/
theorem addIndex_builds_damagedIndex :
    let people : Table := ⟨"people", .default⟩
    let after := ((people.addIndex "age").run.run damagedIndex).2
    people.BuildsWhole damagedIndex "age" ∧
      ((people.addIndex "age").run.run damagedIndex).1 = .ok () ∧
      after.files.read "people/indexes/age.json" =
        .ok (((IndexTable.empty "age").insert (.int 1) ⟨0⟩).toBytes) ∧
      ((people.addIndex "age").run.run after).2.files = after.files := by
  have accepted : ((Store.write (indexPath ⟨"people", .default⟩ "age") []).run.run
      damagedIndex).1 = .ok () := rfl
  have whole : BuildsWhole ⟨"people", .default⟩ damagedIndex "age" :=
    addIndex_builds_whole (by decide) (by decide) accepted
  have built : ((addIndex ⟨"people", .default⟩ "age").run.run damagedIndex).1 = .ok () := by
    decide +kernel
  exact ⟨whole, built, by decide +kernel, (whole.again built (whole.alike trivial built)).2⟩

/-- A disk with a table in its working directory, below a root whose path goes up from a directory
that is not there. -/
def outOfView : Store :=
  let row := Row.empty.insert "age" (.number (.ofUInt64 1))
  .ofFiles (.disk (Disk.empty.write "people/rows/0000.json" (row.toBytes false)).2 "data/..")

/-- Building an index below a root that is not there can bring rows into view, and then building it
again changes it. -/
theorem addIndex_again_outOfView :
    let people : Table := ⟨"people", .default⟩
    let first := (people.addIndex "age").run.run outOfView
    let second := (people.addIndex "age").run.run first.2
    (∀ bytes, ((Store.write (people.indexPath "age") bytes).run.run outOfView).1 = .ok ()) ∧
      (people.rowIds.run.run outOfView).1 = .ok [] ∧ first.1 = .ok () ∧ second.1 = .ok () ∧
      second.2.files.read (people.indexPath "age") ≠
        first.2.files.read (people.indexPath "age") := by
  have accepted : ((Store.write (indexPath ⟨"people", .default⟩ "age") []).run.run outOfView).1 =
      .ok () := by
    decide +kernel
  refine ⟨fun bytes => ?_, by decide +kernel, by decide +kernel, by decide +kernel,
    by decide +kernel⟩
  obtain ⟨succeeded, written⟩ := written_of_accepted accepted bytes
  rw [Store.run_write, written outOfView rfl, succeeded]

end Table

end TableStore
