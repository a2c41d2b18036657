/-
# Columns with an index

The columns that are listed are those that have an index. They are listed in the order of the names
of their files, in which the ending takes part. So a column comes after one that continues its name
with what sorts before the ending, as `a!` continues `a`, and otherwise the order is that of the
columns.
-/

import Mathlib.Data.List.Pairwise
import TableStore.Proofs.Collections
import TableStore.Proofs.Query.Splitting
import TableStore.Proofs.Session.Simulation
import TableStore.Proofs.Table.Seen

namespace TableStore

namespace FileName

/-- Whether the file of a longer name comes before that of a shorter one: the longer name continues
the shorter one with what sorts before the ending. -/
def Overtakes (longer shorter : String) : Prop :=
  ∃ rest, longer.toList = shorter.toList ++ rest ∧ rest ++ ending < ending

variable {first second longer shorter : String}

/-- Files are in the order of their stems, unless one stem overtakes the other. -/
theorem lt_or_overtakes (less : ofStem first < ofStem second) :
    first < second ∨ Overtakes first second := by
  rw [String.lt_iff, ofStem, ofStem, String.toList_ofList, String.toList_ofList] at less
  rcases lt_or_continues less with before | continues
  · exact .inl (String.lt_iff.mpr before)
  · exact .inr continues

/-- A name that overtakes another is the greater one, and its file comes first. -/
theorem Overtakes.lt (overtakes : Overtakes longer shorter) :
    shorter < longer ∧ ofStem longer < ofStem shorter := by
  obtain ⟨rest, continued, early⟩ := overtakes
  constructor
  · rw [String.lt_iff, continued]
    have more : [] < rest := by
      cases rest with
      | nil => exact absurd early (List.lt_irrefl _)
      | cons c others => exact List.nil_lt_cons c others
    simpa using @List.append_left_lt _ _ shorter.toList _ _ more
  · rw [String.lt_iff, ofStem, ofStem, String.toList_ofList, String.toList_ofList, continued,
      List.append_assoc]
    exact List.append_left_lt early

/-- Names in the order of their files are ascending exactly if none overtakes another. -/
theorem pairwise_lt_iff {names : List String}
    (ordered : names.Pairwise fun first second => ofStem first < ofStem second) :
    names.Pairwise (· < ·) ↔ ∀ shorter ∈ names, ∀ longer ∈ names, ¬Overtakes longer shorter := by
  constructor
  · intro ascending shorter isShorter longer isLonger overtakes
    obtain ⟨less, early⟩ := overtakes.lt
    -- both orders hold from left to right, so they are the same among these names
    have agree : ∀ first ∈ names, ∀ second ∈ names,
        first < second → ofStem first < ofStem second := by
      apply List.Pairwise.forall_of_forall_of_flip
      · exact fun name _ less => absurd less (String.lt_irrefl name)
      · refine ordered.imp ?_
        intro first second before _
        exact before
      · refine ascending.imp ?_
        intro first second less greater
        exact absurd greater (String.lt_asymm less)
    exact absurd early (String.lt_asymm (agree shorter isShorter longer isLonger less))
  · intro none
    refine ordered.imp_of_mem fun isFirst isSecond before => ?_
    rcases lt_or_overtakes before with less | overtakes
    · exact less
    · exact absurd overtakes (none _ isSecond _ isFirst)

end FileName

namespace Table

variable {medium : Medium} {ledgers : String → Ledger} {table : Table} {store : Store}
  (isTable : FileName.isSegment table.name = true)
  (holds : medium.Holds (Ledger.content ledgers) store.files) (unfaulted : store.faults = [])

include isTable holds unfaulted

/-- A column is found to have an index if it has one. -/
theorem indexed_iff (quiet : store.failingProbes = []) (column : String) :
    table.indexed store column = true ↔ column ∈ (ledgers table.name).columns := by
  obtain ⟨_, found⟩ := run_hasIndex quiet table column
  rw [indexed, found, unfaulted]
  by_cases isColumn : FileName.isSegment column = true
  · have probed := holds.isFile (.index table.name isTable column isColumn)
    change store.files.isFile (table.indexPath column) = _ at probed
    rw [isColumn, probed, Ledger.content_index]
    by_cases member : column ∈ (ledgers table.name).columns
    · rw [if_pos member]
      exact iff_of_true rfl member
    · rw [if_neg member]
      exact iff_of_false Bool.false_ne_true member
  · refine iff_of_false ?_ fun member => isColumn ((ledgers table.name).isColumn column member)
    rw [Bool.eq_false_of_not_eq_true isColumn]
    exact Bool.false_ne_true

/-- The columns that have an index are listed in the order of the names of their files. -/
theorem exists_indexColumns (admits : medium.AdmitsTable table.name) :
    ∃ columns, (table.indexColumns.run.run store).1 = .ok columns ∧
      (columns.Pairwise fun first second => FileName.ofStem first < FileName.ofStem second) ∧
      ∀ column, column ∈ columns ↔ column ∈ (ledgers table.name).columns := by
  obtain ⟨names, listed, ascending, members⟩ := holds.list isTable (admits.area .indexes)
  refine ⟨names.filterMap FileName.stem?, ?_, ?_, fun column => ?_⟩
  · rw [run_indexColumns, Store.listed, unfaulted]
    change ((store.files.list (Area.indexes.directory table.name)).mapError _).map _ = _
    rw [listed]
    rfl
  · rw [List.pairwise_filterMap]
    refine ascending.imp fun less stem named other alsoNamed => ?_
    rwa [← FileName.stem?_eq_some_iff.mp named, ← FileName.stem?_eq_some_iff.mp alsoNamed]
  · rw [List.mem_filterMap, ← Ledger.exists_index_iff isTable, ← members]
    constructor
    · rintro ⟨name, member, named⟩
      rwa [← FileName.stem?_eq_some_iff.mp named]
    · exact fun member => ⟨FileName.ofStem column, member, FileName.stem?_ofStem column⟩

end Table

namespace Session

/-- After any program that starts without files, whatever probes fail, the columns that are listed
are those that are found to have an index, each once. They are in the order of the names of their
files; and this is the order of the columns exactly if none of them overtakes another. -/
theorem indexColumns_in_file_order {medium : Medium} {program : List Step}
    (admitted : medium.AdmitsProgram program) {files : Files}
    (fresh : medium.Holds (fun _ => none) files) (probes : List Bool) {table : Table}
    (isTable : FileName.isSegment table.name = true) (admits : medium.AdmitsTable table.name) :
    let reached := ((start.run program).run (.probing files probes)).2
    ∃ columns, (table.indexColumns.run.run reached).1 = .ok columns ∧ columns.Nodup ∧
      (∀ column, column ∈ columns ↔
        ((table.hasIndex column).run { reached with failingProbes := [] }).1 = true) ∧
      (columns.Pairwise fun first second => FileName.ofStem first < FileName.ofStem second) ∧
      (columns.Pairwise (· < ·) ↔ ∀ shorter ∈ columns, ∀ longer ∈ columns,
        ¬FileName.Overtakes longer shorter) := by
  intro reached
  obtain ⟨left, held, unfaulted, -, rfl, -⟩ :=
    ensures_run_start admitted (Store.probing files probes) fresh rfl
  have holds : medium.Holds (Ledger.content (Ideal.start.run program).2.ledgers) reached.files :=
    held
  obtain ⟨columns, listed, ordered, members⟩ :=
    Table.exists_indexColumns isTable holds unfaulted admits
  refine ⟨columns, listed, ?_, fun column => ?_, ordered, FileName.pairwise_lt_iff ordered⟩
  · refine ordered.imp fun less same => ?_
    rw [same] at less
    exact String.lt_irrefl _ less
  · rw [members]
    exact (@Table.indexed_iff medium _ table { reached with failingProbes := [] } isTable holds
      unfaulted rfl column).symm

/-- A program that builds indexes on the names and the ages of people. -/
def indexingPeople : List Step :=
  [.handle "people" .default, .call 0 (.addIndex "name"), .call 0 (.addIndex "age")]

/-- After this program, both columns are listed, and the ages come first. -/
theorem indexColumns_of_indexingPeople :
    let people : Table := ⟨"people", .default⟩
    let reached := ((start.run indexingPeople).run (.probing (.memory .empty) [])).2
    (people.indexColumns.run.run reached).1.toOption = some ["age", "name"] ∧
      ∃ columns, (people.indexColumns.run.run reached).1 = .ok columns ∧ columns.Nodup ∧
        (∀ column, column ∈ columns ↔
          ((people.hasIndex column).run { reached with failingProbes := [] }).1 = true) ∧
        (columns.Pairwise fun first second => FileName.ofStem first < FileName.ofStem second) ∧
        (columns.Pairwise (· < ·) ↔ ∀ shorter ∈ columns, ∀ longer ∈ columns,
          ¬FileName.Overtakes longer shorter) := by
  intro people reached
  have isTable : FileName.isSegment people.name = true := by decide
  exact ⟨by decide +kernel, indexColumns_in_file_order
    (Medium.admitsProgram_memory indexingPeople) (.memory .empty) [] isTable
    (Medium.admitsTable_memory people.name)⟩

/-- With indexes on `a` and `a!`, the greater column is listed first, since an exclamation mark
sorts before the dot of the ending. -/
theorem indexColumns_not_ascending :
    let people : Table := ⟨"people", .default⟩
    let reached := ((start.run [.handle "people" .default, .call 0 (.addIndex "a"),
      .call 0 (.addIndex "a!")]).run (.probing (.memory .empty) [])).2
    (people.indexColumns.run.run reached).1.toOption = some ["a!", "a"] ∧
      ¬["a!", "a"].Pairwise (· < ·) := by
  decide +kernel

end Session

end TableStore
