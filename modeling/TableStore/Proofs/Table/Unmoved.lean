/-
# Indexes that a write leaves alone

A write of a row stores anew only those indexes in which the key of the row has changed, and reads
no others. So whatever is in the file of another index, be it damaged, stays there, and shows
neither in what the write answers nor in any other file that it leaves.
-/

import TableStore.Proofs.Files.Refilled
import TableStore.Proofs.Parallel.Table

namespace TableStore.Table

open HostPath

variable {table : Table} {store start : Store} {column other : String} {id : RowId}
  {old new : Row} {bytes : Bytes}

section

variable (isTable : FileName.isSegment table.name = true)

include isTable

/-- The file of a row has a plain path. -/
theorem isPlain_rowPath (id : RowId) : IsPlain (table.rowPath id) := by
  rw [← Place.path_row table isTable id, Place.path_eq_intercalate]
  exact isPlain_intercalate (List.cons_ne_nil _ _) (Place.isSegment_of_mem_names _)

/-- The file of an index has a plain path. A column with a slash has no index, and what would be its
path can lead anywhere, also to the file of a row. -/
theorem isPlain_indexPath (noSlash : '/' ∉ column.toList) : IsPlain (table.indexPath column) := by
  have directory := isPlain_intercalate (List.cons_ne_nil _ _)
    (Place.isSegment_of_mem_directory isTable .indexes)
  rw [← Place.directory_eq_intercalate] at directory
  have name : IsPlain (FileName.ofStem column) := by
    have letters : (FileName.ofStem column).toList = column.toList ++ FileName.ending :=
      String.toList_ofList
    have long : ∀ short : String, short.toList.length < 5 → FileName.ofStem column ≠ short := by
      intro short few same
      rw [← same, letters, List.length_append] at few
      have size : FileName.ending.length = 5 := rfl
      omega
    have alone : segmentsOf (FileName.ofStem column) = [FileName.ofStem column] :=
      segmentsOf_of_notMem (by simpa [letters, FileName.ending] using noSlash)
    intro part member
    rw [alone, List.mem_singleton] at member
    subst member
    exact ⟨long "" (by decide), long "." (by decide), long ".." (by decide)⟩
  exact directory.append name

end

/-- No row is kept in the file of an index. -/
theorem rowPath_ne_indexPath (table : Table) (id : RowId) (column : String) :
    table.rowPath id ≠ table.indexPath column := by
  intro same
  have letters := congrArg String.toList same
  simp [rowPath, rowDirectory, indexPath, indexDirectory] at letters

/-- The indexes on two columns are kept in two files. -/
theorem indexPath_injective (same : table.indexPath column = table.indexPath other) :
    column = other := by
  apply FileName.ofStem_injective
  have letters := congrArg String.toList same
  simpa [indexPath, String.toList_inj] using letters

/-- A row that keeps its key is not moved: the index is neither read nor stored anew. -/
theorem moveInIndex_of_keyIn_eq (table : Table) (id : RowId)
    (unmoved : keyIn column new = keyIn column old) :
    table.moveInIndex id (some old) (some new) column =
      (do
        let _ ← MonadExcept.ofExcept (keyIn column old)
        return false) := by
  rw [moveInIndex, Option.mapM_some, Option.mapM_some, unmoved]
  cases keyIn column old with
  | error error => rfl
  | ok key =>
      change (if some key = some key then pure false else _ : TableM Bool) = _
      rw [if_pos rfl]
      rfl

section

variable (isTable : FileName.isSegment table.name = true) (noSlash : '/' ∉ column.toList)
  (unmoved : keyIn column new = keyIn column old)

include isTable noSlash unmoved

/-- A row is put into its file and into the indexes in which it is moved, whatever is in the file of
another index. -/
theorem tries_persist_of_keyIn_eq :
    Tries (Files.Refilled (table.indexPath column) bytes) start
      (table.persist id (some old) (some new)) anything := by
  have plain := isPlain_indexPath isTable noSlash
  refine Tries.andThen ?_ fun _ => ?_
  · exact (Store.tries_write (Files.changed_write plain (isPlain_rowPath isTable id)
      (table.rowPath_ne_indexPath id column) _)).adapt TableError.files
  have listed : Tries (Files.Refilled (table.indexPath column) bytes) start
      (Store.list table.indexDirectory) anything :=
    Store.tries_list fun first second refilled =>
      ⟨(Files.shown_list table.indexDirectory first second refilled).1, fun _ _ => trivial⟩
  refine Tries.andThen ((listed.adapt TableError.files).bind fun _ _ => .pure trivial)
    fun columns => ?_
  refine Tries.andThen (tries_moveInIndexes fun other _ => ?_) fun _ => .report _
  by_cases here : other = column
  · rw [here, moveInIndex_of_keyIn_eq table id unmoved]
    exact (Tries.ofExcept fun _ _ => trivial).bind fun _ _ => .pure trivial
  · have apart : table.indexPath other ≠ table.indexPath column := mt indexPath_injective here
    have alsoPlain := fun isColumn : FileName.isSegment other = true =>
      isPlain_indexPath isTable (FileName.slash_notMem_of_isSegment isColumn)
    exact tries_moveInIndex id _ _
      (fun isColumn => Files.shown_read plain (alsoPlain isColumn) apart)
      fun isColumn => Files.changed_write plain (alsoPlain isColumn) apart

end

/-- Changes to a row that is seen are put into its file and into the indexes, if they are
scalars. -/
theorem run_update (seen : table.seen store id = .ok (some old)) (changes : Row) :
    (table.update id changes).run.run store =
      match changes.firstComposite? with
      | some column => (.error (.invalidValue column), store)
      | none =>
          let new := old.merge changes
          let ended := (table.persist id (some old) (some new)).run.run store
          (ended.1.map fun _ => new, ended.2) := by
  rw [update, Store.run_bind, run_checkScalars]
  cases changes.firstComposite? with
  | some column => rfl
  | none =>
      dsimp only
      rw [Store.run_bind_of_ok (run_require seen), Store.run_return]

/-- A row that replaces one that is seen is put into its file and into the indexes, if it is made of
scalars. -/
theorem run_write (seen : table.seen store id = .ok (some old)) (new : Row) :
    (table.write id (some new)).run.run store =
      match new.firstComposite? with
      | some column => (.error (.invalidValue column), store)
      | none =>
          let ended := (table.persist id (some old) (some new)).run.run store
          (ended.1.map fun _ => some old, ended.2) := by
  change (checkScalars new >>= fun _ => _ : TableM (Option Row)).run.run store = _
  rw [Store.run_bind, run_checkScalars]
  cases new.firstComposite? with
  | some column => rfl
  | none =>
      have found : (table.read id).run.run store = (.ok (some old), store) := by
        rw [run_read, seen]
      dsimp only
      rw [Store.run_bind_of_ok found]
      exact Store.run_return _ _ store

/-- Whether an operation on a store leaves a file alone and does not depend on what is in it. -/
structure Disregards {α : Type} (path : String) (operation : TableM α) (store : Store) : Prop where
  /-- The file keeps its contents. -/
  kept : (operation.run.run store).2.files.read path = store.files.read path
  /-- With anything else in the file, the answer is the same, and so is all that is left but for the
  file. -/
  blind : ∀ bytes : Bytes,
    let altered := store.files.write path bytes
    let ran := operation.run.run store
    let alsoRan := operation.run.run { store with files := altered.2 }
    altered.1 = .ok () ∧ alsoRan.1 = ran.1 ∧
      ran.2.files.write path bytes = (.ok (), alsoRan.2.files)

/-- A file is disregarded if the operation does the same once the file has been given other
contents. -/
theorem Disregards.of_refilled {α : Type} {path : String} {operation : TableM α}
    (plain : IsPlain path) (isFile : store.files.isFile path = true)
    (parallel : ∀ bytes second, Files.Refilled path bytes store.files second →
      (operation.run.run store).1 = (operation.run.run { store with files := second }).1 ∧
        Files.Refilled path bytes (operation.run.run store).2.files
          (operation.run.run { store with files := second }).2.files) :
    Disregards path operation store where
  kept := by
    -- Giving the file the contents that it has makes no other store, so these are left in it.
    obtain ⟨contents, read⟩ := Files.isFile_iff.mp isFile
    have left := (parallel contents store.files (.of_read read)).2.write_eq plain
    have written := congrArg Prod.fst left
    rw [read, ← Files.read_of_write written, left]
  blind bytes := by
    obtain ⟨written, refilled⟩ := Files.write_of_isFile plain isFile bytes
    obtain ⟨same, after⟩ := parallel bytes _ refilled
    exact ⟨written, same.symm, after.write_eq plain⟩

/-- The index on a column is disregarded by what puts a row with the same key there into its file
and into the indexes, if it does this at all and does nothing else. -/
theorem Disregards.of_persist {α : Type} {operation : TableM α} {composite? : Option String}
    {form : Unit → α} (isTable : FileName.isSegment table.name = true)
    (noSlash : '/' ∉ column.toList)
    (isFile : store.files.isFile (table.indexPath column) = true)
    (seen : table.seen store id = .ok (some old)) (unmoved : keyIn column new = keyIn column old)
    (runs : ∀ other : Store, table.seen other id = .ok (some old) → operation.run.run other =
      match composite? with
      | some composite => (.error (.invalidValue composite), other)
      | none =>
          let ended := (table.persist id (some old) (some new)).run.run other
          (ended.1.map form, ended.2)) :
    Disregards (table.indexPath column) operation store := by
  have plain := isPlain_indexPath isTable noSlash
  refine .of_refilled plain isFile fun bytes second refilled => ?_
  have alsoSeen : table.seen { store with files := second } id = .ok (some old) := by
    rw [← seen]
    exact seen_congr rfl (Files.shown_read plain (isPlain_rowPath isTable id)
      (table.rowPath_ne_indexPath id column) _ _ refilled).1.symm
  rw [runs store seen, runs _ alsoSeen]
  cases composite? with
  | some composite => exact ⟨rfl, refilled⟩
  | none =>
      have related : Store.Related (Files.Refilled (table.indexPath column) bytes) store store
          { store with files := second } := ⟨refilled, rfl, rfl, rfl, List.suffix_rfl⟩
      obtain ⟨same, -, after⟩ := tries_persist_of_keyIn_eq isTable noSlash unmoved _ _ related
      exact ⟨congrArg (Except.map form) same, after.files⟩

/-- A write does not depend on the indexes in which the row is not moved, and leaves them alone.
Whatever is stored, whichever failures are ordered, and whether or not the write fails: if a row
that can be read has the same key in a column as what it is updated or replaced to, the index on the
column keeps its contents, and with any other contents the write answers the same and leaves the
same in all other files. A column with an index has no slash in it, being named by a file. -/
theorem unmoved_index_disregarded (isTable : FileName.isSegment table.name = true)
    (noSlash : '/' ∉ column.toList)
    (isFile : store.files.isFile (table.indexPath column) = true)
    (read : ((table.read id).run.run store).1 = .ok (some old)) :
    (∀ changes : Row, keyIn column (old.merge changes) = keyIn column old →
      Disregards (table.indexPath column) (table.update id changes) store) ∧
    ∀ new : Row, keyIn column new = keyIn column old →
      Disregards (table.indexPath column) (table.write id (some new)) store := by
  rw [run_read] at read
  refine ⟨fun changes unmoved => ?_, fun new unmoved => ?_⟩
  · exact .of_persist isTable noSlash isFile read unmoved fun other seen => run_update seen changes
  · exact .of_persist isTable noSlash isFile read unmoved fun other seen => run_write seen new

/-- Someone of an age with a score. -/
def scoredRow (age : UInt64) (score : Binary64) : Row :=
  Row.empty.insert "age" (.ofUInt64 age) |>.insert "score" (.ofBinary64 score)

/-- People on a disk, one of whom has a negative zero for a score. The index on the ages is sound,
and that on the scores is damaged. -/
def damagedScores : Store :=
  let people : Table := ⟨"people", .default⟩
  let ages := (IndexTable.empty "age").insert (.int 1) .first
  let files := [(people.rowPath .first, (scoredRow 1 ⟨0x8000000000000000⟩).toBytes false),
    (people.indexPath "age", ages.toBytes), (people.indexPath "score", [0x7B])]
  .ofFiles (files.foldl (fun files file => (files.write file.1 file.2).2) (.disk .empty "data"))

/-- The age of this row is updated, and it is replaced by one with the other zero for a score, with
no regard to the index on the scores, which could not be read. -/
theorem unmoved_index_disregarded_damagedScores :
    let people : Table := ⟨"people", .default⟩
    let changes : Row := Row.empty.insert "age" (.ofUInt64 2)
    let updated := (people.update .first changes).run.run damagedScores
    updated.1.toBool = true ∧
      ((people.readIndex "score").run.run damagedScores).1.toBool = false ∧
      Disregards (people.indexPath "score") (people.update .first changes) damagedScores ∧
      Disregards (people.indexPath "score")
        (people.write .first (some (scoredRow 2 ⟨0⟩))) damagedScores := by
  intro people changes updated
  have isFile : damagedScores.files.isFile (people.indexPath "score") = true := by decide +kernel
  have stored : damagedScores.files.read (people.rowPath .first) =
      .ok ((scoredRow 1 ⟨0x8000000000000000⟩).toBytes false) := by decide +kernel
  have read : ((people.read .first).run.run damagedScores).1 =
      .ok (some (scoredRow 1 ⟨0x8000000000000000⟩)) := by
    have decoded := Row.ofBytes_toBytes false (Row.firstComposite?_eq_none_iff.mp
      (rfl : (scoredRow 1 ⟨0x8000000000000000⟩).firstComposite? = none))
    have unfaulted : ¬damagedScores.faults.contains ⟨.read, people.rowPath .first⟩ = true := by
      decide
    rw [run_read, seen, if_neg unfaulted, stored]
    simp only [TableM.found?, parsed, decoded]
  obtain ⟨updates, writes⟩ := unmoved_index_disregarded (by decide) (by decide) isFile read
  exact ⟨by decide +kernel, by decide +kernel, updates changes (by decide +kernel),
    writes (scoredRow 2 ⟨0⟩) (by decide +kernel)⟩

end TableStore.Table
