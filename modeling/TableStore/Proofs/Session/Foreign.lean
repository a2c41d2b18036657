/-
# Foreign entries do not show

A session sees and does the same whether or not the directory of the rows of a table has entries
that are not named for rows, as long as it does not remove the table. It leaves the same files but
for these entries, which it leaves as they were.
-/

import TableStore.Proofs.Files.Strewn
import TableStore.Proofs.Session.Isolation
import TableStore.Proofs.Session.Media

namespace TableStore

open HostPath

/-- Whether files among which foreign entries of a table were strewn hold what files without them do
and have kept these entries since a start, and whether the files without them tell that they have
no table with a name among some, and bypass the tables that were bypassed at the start. -/
structure Files.Overlooked (table : String) (names : String → Prop) (start first second : Files) :
    Prop where
  strewn : Strewn table first second
  untouched : Untouched table start second
  hosts : ∀ name, names name → first.Hosts name
  bypasses : ∀ name, start.Bypasses name → first.Bypasses name

namespace Files.Overlooked

variable {table : String} {names : String → Prop} {start : Files} {other : String}

/-- What does not tell of foreign entries is shown. -/
theorem shown {α : Type} {view : Files → α} (named : names other)
    (same : ∀ first second, Strewn table first second → first.Hosts other →
      view first = view second) :
    Shown (Overlooked table names start) view anything :=
  fun first second overlooked =>
    ⟨same first second overlooked.strewn (overlooked.hosts other named), trivial⟩

/-- A change that is confined to a table, if the root bypasses the same tables as at the start,
overlooks foreign entries if it does so once. -/
theorem changed {operation : Files → Except FileError Unit × Files} (named : names other)
    (confined : ∀ files, (start.Bypasses other → files.Bypasses other) →
      AlikeBelow other files files → Confined other operation files files)
    (overlooks : ∀ first second, (start.Bypasses other → first.Bypasses other) →
      Strewn table first second → first.Hosts other → Overlooks table operation first second) :
    Changed (Overlooked table names start) operation := by
  rintro first second ⟨strewn, untouched, hosts, bypasses⟩
  obtain ⟨outcomes, left, kept⟩ :=
    overlooks first second (bypasses other) strewn (hosts other named)
  obtain ⟨-, -, beside⟩ := confined first (bypasses other) (.refl strewn.anchored)
  exact ⟨outcomes, left, untouched.trans kept, fun name named => beside.hosts (hosts name named),
    fun name bypassed => beside.bypasses (bypasses name bypassed)⟩

end Files.Overlooked

/-- A table is edited alike with and without foreign entries. -/
theorem Table.editable_of_overlooked {own : Table} (isTable : FileName.isSegment own.name = true)
    {names : String → Prop} (named : names own.name) (table : String) (start : Files) :
    own.Editable (Files.Overlooked table names start) fun _ => True := by
  have row := fun id => @Files.Overlooked.shown table names start own.name _
    (Files.read (own.rowPath id)) named fun _ _ strewn hosts =>
      @Files.Strewn.read _ _ _ strewn (.row own.name isTable id)
        (Place.not_isForeign_row isTable id table) hosts
  have index := fun column isColumn => @Files.Overlooked.shown table names start own.name _
    (Files.read (own.indexPath column)) named fun _ _ strewn hosts =>
      @Files.Strewn.read _ _ _ strewn (.index own.name isTable column isColumn)
        (Place.not_isForeign_index isTable isColumn table) hosts
  have found := fun column isColumn => @Files.Overlooked.shown table names start own.name _
    (Files.isFile (own.indexPath column)) named fun _ _ strewn hosts =>
      @Files.Strewn.isFile _ _ _ strewn (.index own.name isTable column isColumn)
        (Place.not_isForeign_index isTable isColumn table) hosts
  have listed := @Files.Overlooked.shown table names start own.name _
    (Files.list own.indexDirectory) named fun _ _ strewn hosts =>
      strewn.list_indexes isTable hosts
  have written := fun (place : Place) (here : place.table = own.name)
      (plain : ¬IsForeign table place.names) bytes =>
    @Files.Overlooked.changed table names start own.name _ named
      (fun _ _ => here ▸ Files.confined_write place bytes)
      fun _ _ _ strewn _ => strewn.write plain bytes
  have deleted := fun (place : Place) (here : place.table = own.name)
      (plain : ¬IsForeign table place.names) =>
    @Files.Overlooked.changed table names start own.name _ named
      (fun _ _ => here ▸ Files.confined_delete place) fun _ _ _ strewn hosts =>
        strewn.delete plain (here ▸ hosts)
  refine ⟨⟨row, ?_, ?_, fun column isColumn _ => index column isColumn⟩, ?_, ?_, ?_, ?_⟩
  · exact Files.Overlooked.shown named fun _ _ strewn hosts => strewn.identified isTable hosts
  · exact fun column isColumn first second related =>
      ⟨(found column isColumn first second related).1, fun _ => trivial⟩
  · exact fun first second related =>
      ⟨(listed first second related).1, fun _ _ _ _ _ => trivial⟩
  · exact fun column bytes isColumn _ => written (.index own.name isTable column isColumn) rfl
      (Place.not_isForeign_index isTable isColumn table) bytes
  · exact fun id => ⟨row id,
      written (.row own.name isTable id) rfl (Place.not_isForeign_row isTable id table),
      deleted (.row own.name isTable id) rfl (Place.not_isForeign_row isTable id table)⟩
  · exact fun column isColumn _ => deleted (.index own.name isTable column isColumn) rfl
      (Place.not_isForeign_index isTable isColumn table)

namespace Session

/-- A session that does not remove a table, and others only if the root bypasses them, sees and does
the same with and without foreign entries among the rows of this table. -/
theorem watch_overlooked {table : String} {names : String → Prop}
    (areTables : ∀ name, names name → FileName.isSegment name = true) {start : Files}
    {store first second : Store}
    (related : Store.Related (Files.Overlooked table names start) store first second)
    {session : Session} (isOn : session.On names) {moves : List Move}
    (within : ∀ move ∈ moves, move.Within names fun _ _ => True)
    (kept : ∀ count step, moves[count]? = some (.step step) →
      ∀ name, ((session.watch (moves.take count)).run first).1.2.removed? step = some name →
        name ≠ table ∧ start.Bypasses name) :
    ((session.watch moves).run first).1 = ((session.watch moves).run second).1 ∧
      Store.Related (Files.Overlooked table names start) store ((session.watch moves).run first).2
        ((session.watch moves).run second).2 := by
  have editable : ∀ own : Table, names own.name →
      own.Editable (Files.Overlooked table names start) fun _ => True := fun own named =>
    Table.editable_of_overlooked (areTables own.name named) named table start
  induction moves generalizing session first second with
  | nil => exact ⟨rfl, related⟩
  | cons move rest ih =>
      have removed : ∀ step, move = .step step → ∀ name, session.removed? step = some name →
          Files.Changed (Files.Overlooked table names start) (Files.deleteAll name) := by
        rintro step rfl name gone
        obtain ⟨apart, bypassed⟩ := kept 0 step rfl name gone
        obtain ⟨own, changed, rfl⟩ := session.exists_changed_of_removed gone
        have named := isOn.changed changed
        have isTable := areTables own.name named
        exact Files.Overlooked.changed named
          (fun _ still => Files.confined_deleteAll isTable (still bypassed))
          fun _ _ still strewn hosts => strewn.deleteAll isTable hosts (still bypassed) apart
      obtain ⟨same, stillOn, after⟩ := parallel_move_of_removed editable isOn removed
        (within move List.mem_cons_self) first second related
      obtain ⟨later, last⟩ := ih after stillOn
        (fun other member => within other (List.mem_cons_of_mem move member))
        fun count step found => kept (count + 1) step found
      simp only [run_watch_cons, ← same]
      exact ⟨by rw [later], last⟩

/-- Entries among the rows of a table that are not named for rows do not show, whatever they are and
wherever the table is kept. On stores that are the same but for such entries, where the same
accesses are ordered to fail, a session sees the same unless it removes the table, or another one
that the root does not bypass. It leaves the same files but for these entries, and the entries as
they were. On a disk without a directory for the root, the names of the tables must not be too long
for a file. -/
theorem foreign_entries_unseen {table : String} {first second : Store}
    (strewn : first.files.Strewn table second.files) (faults : second.faults = first.faults)
    (probes : second.failingProbes = first.failingProbes) {session : Session}
    (isOn : session.On fun name => FileName.isSegment name = true ∧ first.files.Hosts name)
    {moves : List Move}
    (hosts : ∀ move ∈ moves, ∀ name, move.opened? = some name → FileName.isSegment name = true →
      first.files.Hosts name)
    (kept : ∀ count step, moves[count]? = some (.step step) →
      ∀ name, ((session.watch (moves.take count)).run first).1.2.removed? step = some name →
        name ≠ table ∧ first.files.Bypasses name) :
    let without := (session.watch moves).run first
    let among := (session.watch moves).run second
    without.1.1 = among.1.1 ∧
      (∀ path, ¬IsForeign table (segmentsOf path) →
        without.2.files.stored? path = among.2.files.stored? path) ∧
      second.files.Untouched table among.2.files := by
  intro without among
  have related : Store.Related (Files.Overlooked table
      (fun name => FileName.isSegment name = true ∧ first.files.Hosts name) second.files) first
      first second :=
    ⟨⟨strewn, .refl table _, fun _ named => named.2, fun _ => strewn.bypasses_iff.mpr⟩, rfl, faults,
      probes, List.suffix_rfl⟩
  have within : ∀ move ∈ moves, move.Within
      (fun name => FileName.isSegment name = true ∧ first.files.Hosts name) fun _ _ => True :=
    fun move member => ⟨fun name opened isTable => ⟨isTable, hosts move member name opened isTable⟩,
      fun _ _ _ _ _ => trivial⟩
  obtain ⟨same, after⟩ := watch_overlooked (fun _ named => named.1) related isOn within
    fun count step found name removed => (kept count step found name removed).imp_right
      strewn.bypasses_iff.mp
  exact ⟨congrArg Prod.fst same, fun path plain => after.files.strewn.stored? plain,
    after.files.untouched⟩

/-- The place of a file with nearly the name of a row. -/
def nearMiss : Place where
  table := "people"
  area := .rows
  name := "42.json"
  isTable := by decide
  isName := by decide

/-- Such a file is foreign. -/
theorem isForeign_nearMiss : IsForeign "people" nearMiss.names :=
  nearMiss.isForeign_iff.mpr ⟨rfl, rfl, by decide⟩

/-- Nothing that is done with the rows and the index of a table shows that there is such a file,
though the directories of the table were made for it. -/
theorem foreign_entries_unseen_nearMiss :
    let first : Store := .ofFiles (.disk .empty "data")
    let second : Store := .ofFiles (first.files.write nearMiss.path []).2
    let without := (start.watch clearingOut).run first
    let among := (start.watch clearingOut).run second
    without.1.1 = among.1.1 ∧
      (∀ path, ¬IsForeign "people" (segmentsOf path) →
        without.2.files.stored? path = among.2.files.stored? path) ∧
      second.files.Untouched "people" among.2.files := by
  intro first second
  have anchored : first.files.Anchored := Disk.Anchored.of_rooted Disk.rooted_data
  have strewn : first.files.Strewn "people" second.files :=
    Files.strewn_write anchored isForeign_nearMiss []
  refine foreign_entries_unseen strewn rfl rfl on_start ?_ ?_
  · intro move member name opened _
    simp only [clearingOut, List.mem_cons, List.not_mem_nil, or_false] at member
    rcases member with rfl | rfl | rfl | rfl | rfl | rfl | rfl | rfl | rfl
    all_goals cases opened
    exact .inr (by decide)
  · intro count step found
    have member := List.mem_of_getElem? found
    simp only [clearingOut, List.mem_cons, List.not_mem_nil, or_false, reduceCtorEq, false_or,
      Move.step.injEq] at member
    rcases member with rfl | rfl | rfl | rfl | rfl | rfl <;> (intro name removed; cases removed)

end Session

namespace Query

variable {table : Table} {store after : Store} {joins : List Join}

/-- A query for all rows of a table begins by listing them and running the joined queries. -/
theorem run_get_of_ok {ids : List RowId}
    (listed : table.rowIds.run.run store = (.ok ids, after)) :
    (Query.mk table .empty joins).get.run.run store =
      (do
        let fetched ← fetchAll joins
        let rows ← QueryM.onTable (collect table .empty (fun _ row => return row) 0 ids)
        return Join.applyAll joins fetched rows : QueryM (List Row)).run.run after := by
  have resolved : (liftM (Plan.empty.resolve table) : QueryM Plan).run.run store =
      (.ok .empty, store) := rfl
  have found : (QueryM.onTable (Plan.empty.startingIds table)).run.run store =
      (.ok ids, after) := by
    change (QueryM.onTable table.rowIds).run.run store = _
    rw [QueryM.onTable, Store.run_adapt, listed]
    rfl
  rw [get, Store.run_bind_of_ok resolved, Store.run_bind_of_ok found]
  rfl

/-- A query for all rows of a table is refused if they cannot be listed. -/
theorem run_get_of_error {error : TableError}
    (refused : table.rowIds.run.run store = (.error error, after)) :
    (Query.mk table .empty joins).get.run.run store = (.error (.table error), after) := by
  have resolved : (liftM (Plan.empty.resolve table) : QueryM Plan).run.run store =
      (.ok .empty, store) := rfl
  have failed : (QueryM.onTable (Plan.empty.startingIds table)).run.run store =
      (.error (.table error), after) := by
    change (QueryM.onTable table.rowIds).run.run store = _
    rw [QueryM.onTable, Store.run_adapt, refused]
    rfl
  rw [get, Store.run_bind_of_ok resolved, Store.run_bind_of_error failed]

/-- A query for all rows of a table that has none answers none. -/
theorem run_get_all_of_nil (listed : table.rowIds.run.run store = (.ok [], after)) :
    (Query.all table).get.run.run store = (.ok [], after) := by
  rw [all, run_get_of_ok listed]
  rfl

/-- A query for all rows of a table that has none answers none, unless a joined query is refused. -/
theorem run_get_of_nil (foreign : Query) (accepts : Row → Row → Bool)
    (listed : table.rowIds.run.run store = (.ok [], after)) :
    ((Query.mk table .empty [.mk foreign accepts]).get.run.run store).1 =
      ((foreign.get.run.run after).1.mapError (QueryError.join foreign.table.name)).map
        fun _ => [] := by
  rw [run_get_of_ok listed, Store.run_bind, fetchAll, Store.run_bind, QueryM.onJoined,
    Store.run_adapt]
  rcases foreign.get.run.run after with ⟨error | rows, last⟩ <;> rfl

end Query

/-- Without a root, a table that has no rows is joined with one whose name is too long for a file as
with any other that has none. Once there is a root to keep a foreign file in, the rows of the latter
cannot be listed, and the query is refused. -/
theorem Query.get_of_foreign_entry :
    let people : Table := ⟨"people", .default⟩
    let long : Table := ⟨longName 255, .default⟩
    let query := Query.join (.all long) (fun _ _ => true) (.all people)
    let first : Store := .ofFiles (.disk .empty "data")
    let second : Store := .ofFiles (first.files.write Session.nearMiss.path []).2
    FileName.isSegment "people" = true ∧ FileName.isSegment long.name = true ∧
      first.files.Strewn "people" second.files ∧
      (query.get.run.run first).1 = .ok [] ∧
      (query.get.run.run second).1 = .error (.join long.name (.table (.files
        (.io (Area.rows.directory long.name) (.host .nameTooLong))))) := by
  have isTable := isSegment_longName 255
  have size := utf8ByteSize_longName 255
  generalize longName 255 = name at isTable size ⊢
  intro people long query first second
  have isLong : Disk.nameLimit < name.utf8ByteSize := by
    rw [size]
    decide
  have room := HostPath.isTooLong_rowDirectory size
  have isPeople : FileName.isSegment "people" = true := by decide
  have rooted := Disk.rooted_data
  have anchored : first.files.Anchored := Disk.Anchored.of_rooted rooted
  have strewn : first.files.Strewn "people" second.files :=
    Files.strewn_write anchored Session.isForeign_nearMiss []
  have hosts : first.files.Hosts "people" := .inr (by decide)
  have missing : Disk.empty.node? (Disk.empty.base "data") = none := Disk.node?_empty (by decide)
  have none : (first.files.list people.rowDirectory).map Table.identified = .ok [] :=
    (congrArg (Except.map Table.identified) (Files.list_of_missing rooted isPeople missing .rows
      (by decide))).trans (congrArg Except.ok List.mergeSort_nil)
  refine ⟨isPeople, isTable, strewn, ?_, ?_⟩
  · obtain ⟨journal, listed⟩ := @Table.run_rowIds_of_none people first rfl none
    have alsoListed : Files.list (Area.rows.directory long.name) (.disk .empty "data") = .ok [] :=
      Files.list_of_missing rooted isTable missing .rows room
    have answered := (@Table.rowIds_eq_of_list long { first with journal } rfl _ rfl _
      alsoListed).1 rfl
    change ((Query.mk people .empty [.mk (.all long) _]).get.run.run first).1 = _
    rw [Query.run_get_of_nil _ _ listed, Query.run_get_all_of_nil (Prod.ext answered rfl)]
    rfl
  · have alsoNone : (second.files.list people.rowDirectory).map Table.identified = .ok [] :=
      (strewn.identified isPeople hosts).symm.trans none
    obtain ⟨journal, listed⟩ := @Table.run_rowIds_of_none people second rfl alsoNone
    have there : second.files.rootIsThere = true := by decide +kernel
    obtain ⟨tree, files, alsoRooted⟩ := strewn.exists_disk rooted
    rw [files] at there
    have refused := (Files.list_of_long alsoRooted isTable isLong .rows room).trans
      (if_neg (by simp [of_decide_eq_true there]))
    have failed := (@Table.rowIds_eq_of_list long { second with journal } rfl _ files _
      refused).2 _ rfl
    change ((Query.mk people .empty [.mk (.all long) _]).get.run.run second).1 = _
    rw [Query.run_get_of_nil _ _ listed, Query.all, Query.run_get_of_error (Prod.ext failed rfl)]
    rfl

end TableStore
