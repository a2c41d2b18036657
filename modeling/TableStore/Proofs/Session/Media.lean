/-
# Media are interchangeable

Two media that hold the same at all places answer every access to a place alike and hold the same
afterwards. So a session sees the same in memory and on a disk, and leaves the same files.
-/

import TableStore.Proofs.Files.Stored
import TableStore.Proofs.Session.Move
import TableStore.Proofs.Session.Queries

namespace TableStore

/-- Whether two media hold the same at all places. -/
def Medium.Twins (medium other : Medium) (first second : Files) : Prop :=
  ∃ content, medium.Holds content first ∧ other.Holds content second

namespace Medium.Twins

variable {medium other : Medium}

section

variable (place : Place) (admits : medium.Admits place.path) (alsoAdmits : other.Admits place.path)

include admits alsoAdmits

/-- Twins show the same under the path of a place. -/
theorem shown_read : Files.Shown (medium.Twins other) (Files.read place.path) anything := by
  rintro first second ⟨content, holds, alsoHolds⟩
  rw [holds.read admits, alsoHolds.read alsoAdmits]
  exact ⟨rfl, trivial⟩

/-- Twins take a file alike. -/
theorem changed_write (bytes : Bytes) :
    Files.Changed (medium.Twins other) (Files.write place.path bytes) := by
  rintro first second ⟨content, holds, alsoHolds⟩
  obtain ⟨after, written, held⟩ := holds.write admits bytes
  obtain ⟨alsoAfter, alsoWritten, alsoHeld⟩ := alsoHolds.write alsoAdmits bytes
  rw [written, alsoWritten]
  exact ⟨rfl, _, held, alsoHeld⟩

/-- Twins give up a file alike. -/
theorem changed_delete : Files.Changed (medium.Twins other) (Files.delete place.path) := by
  rintro first second ⟨content, holds, alsoHolds⟩
  cases stored : content place with
  | none =>
      rw [holds.delete_none admits stored, alsoHolds.delete_none alsoAdmits stored]
      exact ⟨rfl, content, holds, alsoHolds⟩
  | some bytes =>
      have there : (content place).isSome = true := by rw [stored]; rfl
      obtain ⟨after, deleted, held⟩ := holds.delete admits there
      obtain ⟨alsoAfter, alsoDeleted, alsoHeld⟩ := alsoHolds.delete alsoAdmits there
      rw [deleted, alsoDeleted]
      exact ⟨rfl, _, held, alsoHeld⟩

end

/-- Twins find a file alike, and both take its path if they do. -/
theorem shown_isFile (place : Place) :
    Files.Shown (medium.Twins other) (Files.isFile place.path) fun found =>
      found = true → medium.Admits place.path ∧ other.Admits place.path := by
  rintro first second ⟨content, holds, alsoHolds⟩
  rw [holds.isFile, alsoHolds.isFile]
  exact ⟨rfl, fun stored => ⟨holds.admits stored, alsoHolds.admits stored⟩⟩

variable {table : String} (isTable : FileName.isSegment table = true)

include isTable

/-- Twins list the names in an area alike, and both take the paths of these files. -/
theorem shown_list (area : Area) (admits : medium.Admits (area.directory table))
    (alsoAdmits : other.Admits (area.directory table)) :
    Files.Shown (medium.Twins other) (Files.list (area.directory table)) fun outcome =>
      ∀ names, outcome = .ok names →
        ∀ place : Place, place.table = table → place.area = area → place.name ∈ names →
          medium.Admits place.path ∧ other.Admits place.path := by
  rintro first second ⟨content, holds, alsoHolds⟩
  obtain ⟨names, listed, ascending, members⟩ := holds.list isTable admits
  obtain ⟨others, alsoListed, alsoAscending, alsoMembers⟩ := alsoHolds.list isTable alsoAdmits
  have same : names = others := eq_of_ascending ascending alsoAscending fun name => by
    rw [members, alsoMembers]
  rw [listed, alsoListed, same]
  refine ⟨rfl, ?_⟩
  rintro _ ⟨⟩ place here area named
  obtain ⟨found, tables, areas, nameds, stored⟩ := (alsoMembers place.name).mp named
  have samePlace : found = place :=
    Place.ext (tables.trans here.symm) (areas.trans area.symm) nameds
  rw [samePlace] at stored
  exact ⟨holds.admits stored, alsoHolds.admits stored⟩

/-- Twins lose a table alike. -/
theorem changed_deleteAll (admits : medium.Admits table) (alsoAdmits : other.Admits table) :
    Files.Changed (medium.Twins other) (Files.deleteAll table) := by
  rintro first second ⟨content, holds, alsoHolds⟩
  obtain ⟨after, deleted, held⟩ := holds.deleteAll isTable admits
  obtain ⟨alsoAfter, alsoDeleted, alsoHeld⟩ := alsoHolds.deleteAll isTable alsoAdmits
  rw [deleted, alsoDeleted]
  exact ⟨rfl, _, held, alsoHeld⟩

end Medium.Twins

/-- Whether both of two media take the file of the index on a column. -/
def Medium.BothAdmit (medium other : Medium) (table column : String) : Prop :=
  medium.Admits (Area.indexes.directory table ++ "/" ++ FileName.ofStem column) ∧
    other.Admits (Area.indexes.directory table ++ "/" ++ FileName.ofStem column)

/-- Twins serve all tables that they take. -/
theorem Table.served_of_twins {medium other : Medium} {table : Table}
    (isTable : FileName.isSegment table.name = true) (admits : medium.AdmitsTable table.name)
    (alsoAdmits : other.AdmitsTable table.name) :
    table.Served (medium.Twins other) (medium.BothAdmit other table.name) := by
  have row := fun id => Medium.Twins.shown_read (.row table.name isTable id)
    (admits.row isTable id) (alsoAdmits.row isTable id)
  have listed := fun area => Medium.Twins.shown_list isTable area (admits.area area)
    (alsoAdmits.area area)
  refine ⟨⟨?_, ?_, ?_, ?_, ?_⟩, ?_⟩
  · refine ⟨row, ?_, ?_, ?_⟩
    · intro first second twins
      exact ⟨congrArg (Except.map Table.identified) (listed .rows first second twins).1, trivial⟩
    · exact fun column isColumn =>
        Medium.Twins.shown_isFile (.index table.name isTable column isColumn)
    · exact fun column isColumn known =>
        Medium.Twins.shown_read (.index table.name isTable column isColumn) known.1 known.2
  · intro first second twins
    obtain ⟨same, stated⟩ := listed .indexes first second twins
    refine ⟨same, fun names answered column named isColumn => ?_⟩
    exact stated names answered (.index table.name isTable column isColumn) rfl rfl named
  · exact fun column bytes isColumn known => Medium.Twins.changed_write
      (.index table.name isTable column isColumn) known.1 known.2 bytes
  · intro id
    exact ⟨row id, Medium.Twins.changed_write (.row table.name isTable id)
        (admits.row isTable id) (alsoAdmits.row isTable id),
      Medium.Twins.changed_delete (.row table.name isTable id)
        (admits.row isTable id) (alsoAdmits.row isTable id)⟩
  · exact fun column isColumn known => Medium.Twins.changed_delete
      (.index table.name isTable column isColumn) known.1 known.2
  · exact Medium.Twins.changed_deleteAll isTable admits.directory alsoAdmits.directory

/-- Whether a medium takes all paths that moves need: those of the tables on which they open
handles, and in these tables the indexes that they name. -/
def Medium.AdmitsMoves (medium : Medium) (moves : List Move) : Prop :=
  ∀ name options, .step (.handle name options) ∈ moves → FileName.isSegment name = true →
    medium.AdmitsTable name ∧ ∀ move ∈ moves, ∀ column, move.column? = some column →
      FileName.isSegment column = true → medium.Admits (Table.indexPath ⟨name, options⟩ column)

/-- A disk takes all moves in which the names of tables and of columns with an index are short. -/
theorem Medium.admitsMoves_disk {root : String} {moves : List Move}
    (room : root.utf8ByteSize ≤ 3000)
    (tables : ∀ name options, .step (.handle name options) ∈ moves →
      name.utf8ByteSize ≤ Disk.nameLimit)
    (columns : ∀ move ∈ moves, ∀ column, move.column? = some column →
      (FileName.ofStem column).utf8ByteSize ≤ Disk.nameLimit) :
    (disk root).AdmitsMoves moves := by
  intro name options opened isTable
  have short := tables name options opened
  refine ⟨admitsTable_disk room isTable short, fun move member column asked isColumn => ?_⟩
  exact @admits_place_disk root name room isTable short (.index name isTable column isColumn) rfl
    (columns move member column asked)

namespace Session

/-- A session shows the same in memory and below a root of a disk that holds no files, whatever
accesses are ordered to fail, and after any number of its moves the same contents are stored under
the same paths, and no others. -/
theorem watch_interchangeable {root : String} {moves : List Move}
    (admitted : (Medium.disk root).AdmitsMoves moves) {tree : Disk}
    (fresh : (Medium.disk root).Holds (fun _ => none) (.disk tree root)) (faults : List Fault)
    (probes : List Bool) (count : Nat) :
    let inMemory := (start.watch (moves.take count)).run ⟨.memory .empty, faults, [], probes⟩
    let onDisk := (start.watch (moves.take count)).run ⟨.disk tree root, faults, [], probes⟩
    inMemory.1.1 = onDisk.1.1 ∧
      ∀ path, inMemory.2.files.stored? path = onDisk.2.files.stored? path := by
  intro inMemory onDisk
  let names : String → Prop := fun name =>
    FileName.isSegment name = true ∧ ∃ options, .step (.handle name options) ∈ moves
  have served : ∀ table : Table, names table.name →
      table.Served (Medium.memory.Twins (.disk root))
        (Medium.memory.BothAdmit (.disk root) table.name) := by
    rintro table ⟨isTable, options, opened⟩
    exact Table.served_of_twins isTable (Medium.admitsTable_memory table.name)
      (admitted table.name options opened isTable).1
  have within : ∀ move ∈ moves.take count,
      move.Within names (Medium.memory.BothAdmit (.disk root)) := by
    intro move member
    have inProgram := List.mem_of_mem_take member
    constructor
    · rintro name opened isTable
      refine ⟨isTable, ?_⟩
      match move with
      | .step (.handle _ options) =>
          cases opened
          exact ⟨options, inProgram⟩
    · rintro column asked isColumn name ⟨isTable, options, opened⟩
      exact ⟨trivial,
        (admitted name options opened isTable).2 move inProgram column asked isColumn⟩
  have twins : Medium.memory.Twins (.disk root) (.memory .empty) (.disk tree root) :=
    ⟨_, .memory .empty, fresh⟩
  obtain ⟨same, -, after⟩ := parallel_watch (fun table named => (served table named).toEditable)
    on_start (fun _ _ _ name named => (served ⟨name, .default⟩ named).deleteAll) within
    ⟨.memory .empty, faults, [], probes⟩ ⟨.disk tree root, faults, [], probes⟩
    ⟨twins, rfl, rfl, rfl, List.suffix_rfl⟩
  obtain ⟨content, held, alsoHeld⟩ := after.files
  exact ⟨congrArg Prod.fst same, held.stored?_congr alsoHeld⟩

/-- A program that removes by a query the only row of a table with an index, and then the index. -/
def clearingOut : List Move :=
  [.step (.handle "people" .default), .step (.call 0 (.insert (agedRow 1))),
    .step (.call 0 (.addIndex "age")), .verifyIndexes 0, .step (.query 0), .step (.delete 0),
    .indexColumns 0, .step (.call 0 (.removeIndex "age")), .isEmpty 0]

/-- In memory and on a disk, this program shows the same and leaves the same files. -/
theorem watch_interchangeable_clearingOut :
    let inMemory := (start.watch (clearingOut.take 9)).run ⟨.memory .empty, [], [], []⟩
    let onDisk := (start.watch (clearingOut.take 9)).run ⟨.disk .empty "data", [], [], []⟩
    inMemory.1.1 = onDisk.1.1 ∧
      ∀ path, inMemory.2.files.stored? path = onDisk.2.files.stored? path := by
  refine @watch_interchangeable "data" clearingOut ?_ .empty holds_empty_data [] [] 9
  refine Medium.admitsMoves_disk (by decide) (fun name options opened => ?_)
    (fun move member column asked => ?_)
  · obtain ⟨named, -⟩ : name = "people" ∧ options = .default := by
      simpa [clearingOut] using opened
    rw [named]
    decide
  · have named : column = "age" := by
      simp only [clearingOut, List.mem_cons, List.not_mem_nil, or_false] at member
      rcases member with rfl | rfl | rfl | rfl | rfl | rfl | rfl | rfl | rfl
      all_goals first | exact (Option.some.inj asked).symm | cases asked
    rw [named]
    decide

end Session

end TableStore
