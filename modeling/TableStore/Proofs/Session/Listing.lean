/-
# Listed tables

Memory lists the tables that hold a row or an index. A disk lists those that have held one since
they were last removed: what makes the directory of a table is its first file, and what takes it
away is the removal of the table, but not that of its last file. On both, removing a table says
whether it was listed, and takes it from the list.
-/

import TableStore.Database
import TableStore.Proofs.Files.Listing
import TableStore.Proofs.Query.Bare
import TableStore.Proofs.Session.Move
import TableStore.Proofs.Session.Queries

namespace TableStore

/-- Whether a row or an index of a table is stored. -/
def Files.HasTable (name : String) (files : Files) : Prop :=
  let table : Table := ⟨name, .default⟩
  (∃ id, files.isFile (table.rowPath id) = true) ∨
    ∃ column, FileName.isSegment column = true ∧ files.isFile (table.indexPath column) = true

/-- A ledger without rows and without columns with an index is empty. -/
theorem Ledger.eq_empty {ledger : Ledger} (rows : ledger.rows = ∅) (columns : ledger.columns = ∅) :
    ledger = .empty := by
  obtain ⟨_, _, _⟩ := ledger
  cases rows
  cases columns
  rfl

section

variable {medium : Medium} {ledgers : String → Ledger} {files : Files} {name : String}
  (isName : FileName.isSegment name = true)

include isName

/-- A table has a file if and only if its ledger has a row or an index. -/
theorem Ledger.exists_content_iff :
    (∃ place : Place, place.table = name ∧ (content ledgers place).isSome = true) ↔
      ledgers name ≠ .empty := by
  constructor
  · rintro ⟨place, rfl, stored⟩ bare
    rcases exists_of_content stored with ⟨id, member, -⟩ | ⟨column, member, -⟩
    · rw [bare] at member
      exact Std.ExtTreeMap.not_mem_empty member
    · rw [bare] at member
      exact Std.ExtTreeSet.not_mem_empty member
  · intro nonempty
    by_contra nothing
    have absent : ∀ place : Place, place.table = name → content ledgers place = none := by
      intro place here
      by_contra stored
      exact nothing ⟨place, here, Option.isSome_iff_ne_none.mpr stored⟩
    refine nonempty (eq_empty (Std.ExtTreeMap.ext_getElem? fun id => ?_)
      (Std.ExtTreeSet.ext_mem fun column => ?_))
    · have row := absent (.row name isName id) rfl
      rw [content_row, Option.map_eq_none_iff] at row
      exact row.trans Std.ExtTreeMap.getElem?_empty.symm
    · refine iff_of_false (fun member => ?_) Std.ExtTreeSet.not_mem_empty
      have isColumn := (ledgers name).isColumn column member
      have index := absent (.index name isName column isColumn) rfl
      rw [content_index, if_pos member] at index
      cases index

variable (holds : medium.Holds (Ledger.content ledgers) files)

include holds

/-- A row or an index is stored if there is one in the ledger. -/
theorem Medium.Holds.hasTable_iff : files.HasTable name ↔ ledgers name ≠ .empty := by
  rw [← Ledger.exists_content_iff isName]
  constructor
  · rintro (⟨id, found⟩ | ⟨column, isColumn, found⟩)
    · exact ⟨.row name isName id, rfl, (holds.isFile (.row name isName id)).symm.trans found⟩
    · exact ⟨.index name isName column isColumn, rfl,
        (holds.isFile (.index name isName column isColumn)).symm.trans found⟩
  · rintro ⟨place, rfl, stored⟩
    rcases Ledger.exists_of_content stored with ⟨id, -, same⟩ | ⟨column, member, same⟩
    · refine .inl ⟨id, ?_⟩
      rw [← holds.isFile, same] at stored
      exact stored
    · refine .inr ⟨column, (ledgers place.table).isColumn column member, ?_⟩
      rw [← holds.isFile, same] at stored
      exact stored

/-- A table with a row or an index is kept. -/
theorem Medium.Holds.keeps_of_ne_empty (nonempty : ledgers name ≠ .empty) : files.Keeps name := by
  obtain ⟨place, rfl, stored⟩ := (Ledger.exists_content_iff isName).mpr nonempty
  exact holds.keeps stored

end

/-- Removing a table removes its directory. -/
theorem Table.run_drop {table : Table} {store : Store} (unfaulted : store.faults = [])
    (removed : (store.files.deleteAll table.name).1 = .ok ()) :
    table.drop.run.run store =
      (.ok (), { store with
        files := (store.files.deleteAll table.name).2
        journal := store.journal ++ [.tableDropped table.name] }) := by
  have ran : (Store.deleteAll table.name).run.run store =
      (.ok (), { store with files := (store.files.deleteAll table.name).2 }) := by
    have noFault : store.faults.contains ⟨.deleteAll, table.name⟩ = false := by
      rw [unfaulted]
      rfl
    rw [Store.deleteAll, Store.run_checked, noFault, if_neg Bool.false_ne_true]
    change ((store.files.deleteAll table.name).1,
      { store with files := (store.files.deleteAll table.name).2 }) = _
    rw [removed]
  rw [drop, Store.run_bind, TableM.onFiles, Store.run_adapt, ran]
  rfl

/-- Take some steps without a store, and then one more. -/
theorem Ideal.run_concat (ideal : Ideal) (steps : List Step) (step : Step) :
    (ideal.run (steps ++ [step])).2 = ((ideal.run steps).2.perform step).2 := by
  induction steps generalizing ideal with
  | nil => rfl
  | cons first rest ih => exact ih (ideal.perform first).2

namespace Session

section

variable {session : Session} {step : Step} {store : Store} {name : String}
  (steady : store.files.Steady)
  (isTable : ∀ table, session.changed? step = some table → FileName.isSegment table.name = true)

include steady isTable

/-- The directory of a table stays unless the table is removed. -/
theorem inRoot?_perform_of_directory (there : store.files.inRoot? name = some .directory)
    (stays : session.removed? step ≠ some name) :
    ((session.perform step).run store).2.files.inRoot? name = some .directory := by
  let kept : Files → Prop := fun files => files.Steady ∧ files.inRoot? name = some .directory
  have edited : ∀ table, session.changed? step = some table →
      table.Editable (Files.Same kept) fun _ => True := by
    intro table changed
    refine Table.editable_same (isTable table changed) ?_ ?_
    · rintro place bytes files - ⟨steady, there⟩
      exact ⟨(Files.confined_write place bytes (.refl steady.anchored)).steady steady,
        Files.inRoot?_write steady.anchored there place bytes⟩
    · rintro place files - ⟨steady, there⟩
      exact ⟨(Files.confined_delete place (.refl steady.anchored)).steady steady,
        Files.inRoot?_delete steady.anchored there place⟩
  have removed : ∀ other, session.removed? step = some other →
      Files.Changed (Files.Same kept) (Files.deleteAll other) := by
    intro other gone
    have apart : name ≠ other := fun same => stays (same ▸ gone)
    obtain ⟨table, changed, rfl⟩ := session.exists_changed_of_removed gone
    refine Files.Same.changed ?_
    rintro files ⟨steady, there⟩
    have isOther := isTable table changed
    have confined := Files.confined_deleteAll isOther (steady.bypasses table.name isOther)
      (.refl steady.anchored)
    exact ⟨confined.steady steady, (confined.2.2.inRoot? apart).trans there⟩
  exact (perform_same edited removed ⟨steady, there⟩).2

/-- What is in the root under the name of a table stays as it is when another one is changed. -/
theorem inRoot?_perform_of_ne
    (others : ∀ table, session.changed? step = some table → table.name ≠ name) :
    ((session.perform step).run store).2.files.inRoot? name = store.files.inRoot? name := by
  let kept : Files → Prop := fun files =>
    files.Steady ∧ files.inRoot? name = store.files.inRoot? name
  have stays : ∀ (table : Table) operation files, session.changed? step = some table →
      kept files → Files.Confined table.name operation files files → kept (operation files).2 := by
    rintro table operation files changed ⟨steady, same⟩ confined
    exact ⟨confined.steady steady, (confined.2.2.inRoot? (others table changed).symm).trans same⟩
  have edited : ∀ table, session.changed? step = some table →
      table.Editable (Files.Same kept) fun _ => True := by
    intro table changed
    refine Table.editable_same (isTable table changed) ?_ ?_
    · intro place bytes files here before
      exact stays table _ files changed before
        (here ▸ Files.confined_write place bytes (.refl before.1.anchored))
    · intro place files here before
      exact stays table _ files changed before
        (here ▸ Files.confined_delete place (.refl before.1.anchored))
  have removed : ∀ other, session.removed? step = some other →
      Files.Changed (Files.Same kept) (Files.deleteAll other) := by
    intro other gone
    obtain ⟨table, changed, rfl⟩ := session.exists_changed_of_removed gone
    have isOther := isTable table changed
    exact Files.Same.changed fun files before => stays table _ files changed before
      (Files.confined_deleteAll isOther (before.1.bypasses table.name isOther)
        (.refl before.1.anchored))
  exact (perform_same edited removed ⟨steady, rfl⟩).2

end

section

variable {medium : Medium} {program : List Step} {session : Session} {ideal : Ideal}
  (follows : Follows medium program session ideal.session) {step : Step}

include follows

/-- The medium takes all tables that are changed. -/
theorem Follows.changed {table : Table} (changed : session.changed? step = some table) :
    FileName.isSegment table.name = true ∧ medium.AdmitsTable table.name := by
  have ofQuery : ∀ number : Nat, session.queries[number]?.map Query.table = some table →
      FileName.isSegment table.name = true ∧ medium.AdmitsTable table.name := by
    intro number found
    obtain ⟨⟨_, plan, joins⟩, member, rfl⟩ := Option.map_eq_some_iff.mp found
    have valid := follows.valid _ (List.mem_of_getElem? member)
    rw [Query.Valid] at valid
    exact ⟨valid.1, valid.2.1⟩
  cases step with
  | call handle call =>
      have fits := follows.fits table (List.mem_of_getElem? changed)
      exact ⟨fits.isTable, fits.admits⟩
  | delete query | set query changes => exact ofQuery query changed
  | _ => cases changed

variable (member : step ∈ program) {store : Store}
  (holds : medium.Holds (Ledger.content ideal.ledgers) store.files) (unfaulted : store.faults = [])

include holds unfaulted

include member in
/-- A step that changes a bare table and does not remove it changes no file, unless it stores
something. -/
theorem files_perform_of_bare {table : Table} (changed : session.changed? step = some table)
    (bare : ideal.ledgers table.name = .empty)
    (stays : session.removed? step ≠ some table.name)
    (still : (ideal.perform step).2.ledgers table.name = .empty) :
    ((session.perform step).run store).2.files = store.files := by
  obtain ⟨isTable, admits⟩ := follows.changed changed
  have unseen := Table.seen_of_bare isTable admits holds unfaulted bare
  cases step with
  | call handle call =>
      have found : session.handles[handle]? = some table := changed
      have notDrop : call ≠ .drop := by
        rintro rfl
        exact stays (congrArg (Option.map Table.name) found)
      have fits := follows.fits table (List.mem_of_getElem? found)
      rw [Ideal.perform, Ideal.withHandle, follows.handles, found] at still
      have emptied : (ideal.ledgers table.name).after table.options call = .empty := by
        rw [← still]
        exact (Function.update_self table.name _ ideal.ledgers).symm
      rw [bare] at emptied
      rw [perform, withHandle, found]
      exact Table.files_perform_of_bare isTable admits holds unfaulted bare notDrop
        (fits.calls handle call member) emptied
  | delete number =>
      obtain ⟨query, found, rfl⟩ := Option.map_eq_some_iff.mp changed
      rw [perform, withQuery, found]
      exact (Query.inOrder_delete isTable store).files_of_unseen unseen
  | set number changes =>
      obtain ⟨query, found, rfl⟩ := Option.map_eq_some_iff.mp changed
      rw [perform, withQuery, found]
      exact (Query.inOrder_set isTable changes store).files_of_unseen unseen
  | _ => cases changed

/-- The directory of a table that a step removes is gone. -/
theorem inRoot?_perform_of_removed {name : String} (removed : session.removed? step = some name) :
    ((session.perform step).run store).2.files.inRoot? name = none := by
  obtain ⟨table, changed, rfl⟩ := session.exists_changed_of_removed removed
  obtain ⟨isTable, admits⟩ := follows.changed changed
  obtain ⟨after, deleted, -⟩ := holds.deleteAll isTable admits.directory
  have done : (store.files.deleteAll table.name).1 = .ok () := by rw [deleted]
  cases step with
  | call handle call =>
      cases call with
      | drop =>
          have found : session.handles[handle]? = some table := changed
          have gone := Files.inRoot?_deleteAll holds.steady.anchored
            (holds.steady.bypasses table.name isTable) isTable done
          rw [perform, withHandle, found]
          change ((table.perform .drop).run.run store).2.files.inRoot? table.name = none
          rw [Table.perform, Store.run_bind, Table.run_drop unfaulted done]
          exact gone
      | _ => cases removed
  | _ => cases removed

end

section

variable {root : String} {program : List Step} {session : Session} {ideal : Ideal}
  (follows : Follows (.disk root) program session ideal.session)
  (admitted : (Medium.disk root).AdmitsProgram program) {step : Step} (member : step ∈ program)
  {store : Store}
  (holds : (Medium.disk root).Holds (Ledger.content ideal.ledgers) store.files)
  (unfaulted : store.faults = [])

include follows admitted member holds unfaulted

/-- After a step, a disk has the directory of a table if it had it and the table was not removed,
or if the table holds a row or an index. -/
theorem inRoot?_perform_iff {name : String} (isName : FileName.isSegment name = true) :
    ((session.perform step).run store).2.files.inRoot? name = some .directory ↔
      (store.files.inRoot? name = some .directory ∧ session.removed? step ≠ some name) ∨
        (ideal.perform step).2.ledgers name ≠ .empty := by
  have isTable := fun table changed => (@Follows.changed _ _ _ _ follows step table changed).1
  have steady := holds.steady
  constructor
  · intro there
    by_contra neither
    rw [not_or, not_and, not_not, not_not] at neither
    obtain ⟨unlisted, still⟩ := neither
    by_cases removed : session.removed? step = some name
    · cases there.symm.trans
        (inRoot?_perform_of_removed follows holds unfaulted removed)
    have absent : store.files.inRoot? name = none :=
      holds.inRoot?_eq_none fun listed => removed (unlisted listed)
    have bare : ideal.ledgers name = .empty := by
      by_contra nonempty
      have kept := holds.keeps_of_ne_empty isName nonempty
      rw [holds.keeps_disk_iff, absent] at kept
      cases kept
    by_cases own : ∃ table, session.changed? step = some table ∧ table.name = name
    · obtain ⟨table, changed, rfl⟩ := own
      rw [files_perform_of_bare follows member holds unfaulted changed bare removed still,
        absent] at there
      cases there
    · have others : ∀ table, session.changed? step = some table → table.name ≠ name :=
        fun table changed same => own ⟨table, changed, same⟩
      rw [inRoot?_perform_of_ne steady isTable others, absent] at there
      cases there
  · rintro (⟨there, stays⟩ | nonempty)
    · exact inRoot?_perform_of_directory steady isTable there stays
    · obtain ⟨left, held, -, -, rfl, -⟩ := ensures_perform follows admitted member store holds
        unfaulted
      exact held.keeps_disk_iff.mp (held.keeps_of_ne_empty isName nonempty)

end

/-- The session and the store after the first steps of a program. -/
def reach (program : List Step) (store : Store) (count : Nat) : Session × Store :=
  let ran := (start.run (program.take count)).run store
  (ran.1.2, ran.2)

/-- The ideal after the first steps of a program. -/
def ideally (program : List Step) (count : Nat) : Ideal :=
  (Ideal.start.run (program.take count)).2

/-- Whether a table has held a row or an index in the course of a program, and has not been removed
since. -/
def HeldSinceRemoval (program : List Step) (store : Store) (count : Nat) (name : String) : Prop :=
  ∃ earlier ≤ count, (reach program store earlier).2.files.HasTable name ∧
    ∀ later step, earlier ≤ later → later < count → program[later]? = some step →
      (reach program store later).1.removed? step ≠ some name

/-- Take some steps, and then one more. -/
theorem run_concat (session : Session) (steps : List Step) (step : Step) (store : Store) :
    let ran := (session.run steps).run store
    let last := (ran.1.2.perform step).run ran.2
    ((session.run (steps ++ [step])).run store).1.2 = last.1.2 ∧
      ((session.run (steps ++ [step])).run store).2 = last.2 := by
  induction steps generalizing session store with
  | nil => exact ⟨rfl, rfl⟩
  | cons first rest ih =>
      exact ih ((session.perform first).run store).1.2 ((session.perform first).run store).2

section

variable {program : List Step} {store : Store} {count : Nat}

/-- What is reached with one more step. -/
theorem reach_succ {step : Step} (taken : program[count]? = some step) :
    let reached := reach program store count
    let last := (reached.1.perform step).run reached.2
    reach program store (count + 1) = (last.1.2, last.2) ∧
      ideally program (count + 1) = ((ideally program count).perform step).2 := by
  have steps : program.take (count + 1) = program.take count ++ [step] := by
    rw [List.take_add_one, taken]
    rfl
  obtain ⟨session, left⟩ := run_concat start (program.take count) step store
  have more : reach program store (count + 1) =
      (((start.run (program.take count ++ [step])).run store).1.2,
        ((start.run (program.take count ++ [step])).run store).2) := by
    rw [reach, steps]
  refine ⟨more.trans (Prod.ext session left), ?_⟩
  rw [ideally, steps]
  exact Ideal.run_concat _ _ step

/-- A table has been held since it was last removed if that was so before and the last step did not
remove it, or if it is held now. -/
theorem heldSinceRemoval_succ {step : Step} (taken : program[count]? = some step) (name : String) :
    HeldSinceRemoval program store (count + 1) name ↔
      (HeldSinceRemoval program store count name ∧
          (reach program store count).1.removed? step ≠ some name) ∨
        (reach program store (count + 1)).2.files.HasTable name := by
  constructor
  · rintro ⟨earlier, upTo, held, stays⟩
    rcases Nat.le_succ_iff.mp upTo with before | rfl
    · refine .inl ⟨⟨earlier, before, held, fun later step after early => ?_⟩, ?_⟩
      · exact stays later step after (Nat.lt_succ_of_lt early)
      · exact stays count step before (Nat.lt_succ_self count) taken
    · exact .inr held
  · rintro (⟨⟨earlier, before, held, stays⟩, last⟩ | held)
    · refine ⟨earlier, Nat.le_succ_of_le before, held, fun later other after early found => ?_⟩
      rcases Nat.lt_succ_iff_lt_or_eq.mp early with sooner | rfl
      · exact stays later other after sooner found
      · cases taken.symm.trans found
        exact last
    · refine ⟨count + 1, Nat.le_refl _, held, fun later other after early => ?_⟩
      exact absurd early (Nat.not_lt.mpr after)

variable {medium : Medium} (admitted : medium.AdmitsProgram program)
  (fresh : medium.Holds (fun _ => none) store.files) (unfaulted : store.faults = [])

include admitted fresh unfaulted

/-- What is reached comes to what is reached ideally. -/
theorem reach_spec (count : Nat) :
    let reached := reach program store count
    let ideal := ideally program count
    medium.Holds (Ledger.content ideal.ledgers) reached.2.files ∧ reached.2.faults = [] ∧
      Follows medium program reached.1 ideal.session := by
  rw [← Ledger.content_empty] at fresh
  obtain ⟨left, holds, quiet, -, rfl, follows⟩ := @ensures_run medium program start Ideal.start
    admitted (program.take count) (fun _ => List.mem_of_mem_take) follows_start store fresh
    unfaulted
  exact ⟨holds, quiet, follows⟩

end

/-- A disk has the directories of the tables that have held a row or an index since they were last
removed. -/
theorem inRoot?_reach_iff {root : String} {program : List Step}
    (admitted : (Medium.disk root).AdmitsProgram program) {store : Store}
    (fresh : (Medium.disk root).Holds (fun _ => none) store.files) (unfaulted : store.faults = [])
    {name : String} (isName : FileName.isSegment name = true)
    (unused : store.files.inRoot? name = none) {count : Nat} (enough : count ≤ program.length) :
    (reach program store count).2.files.inRoot? name = some .directory ↔
      HeldSinceRemoval program store count name := by
  induction count with
  | zero =>
      have nothing : (reach program store 0).2.files.inRoot? name = none := unused
      rw [nothing]
      refine iff_of_false (fun impossible => nomatch impossible) ?_
      rintro ⟨earlier, none, held, -⟩
      cases Nat.le_zero.mp none
      obtain ⟨holds, -, -⟩ := reach_spec admitted fresh unfaulted 0
      exact (holds.hasTable_iff isName).mp held rfl
  | succ count ih =>
      obtain ⟨holds, quiet, follows⟩ := reach_spec admitted fresh unfaulted count
      obtain ⟨held, -, -⟩ := reach_spec admitted fresh unfaulted (count + 1)
      have before := ih (Nat.le_of_succ_le enough)
      have taken : program[count]? = some program[count] := List.getElem?_eq_getElem enough
      obtain ⟨reached, ideally⟩ := @reach_succ program store count _ taken
      have next := inRoot?_perform_iff follows admitted (List.mem_of_getElem? taken) holds quiet
        isName
      rw [ideally] at held
      rw [heldSinceRemoval_succ taken, held.hasTable_iff isName, ← before, ← next, reached]

end Session

/-- Whether a medium lists a table after a program: memory, if the table holds a row or an index; a
disk, if it has held one since it was last removed. -/
def Medium.Lists (medium : Medium) (program : List Step) (store : Store) (name : String) : Prop :=
  match medium with
  | .memory => ((Session.start.run program).run store).2.files.HasTable name
  | .disk _ => Session.HeldSinceRemoval program store program.length name

namespace Database

variable {store : Store} {names : List String}

/-- The tables are listed as the root lists them. -/
theorem run_tableNames (unfaulted : store.faults = []) (listed : store.files.list "" = .ok names)
    (named : ∀ name ∈ names, FileName.isSegment name = true) :
    tableNames.run.run store = (.ok names, store) := by
  have noFault : store.faults.contains ⟨.list, ""⟩ = false := by
    rw [unfaulted]
    rfl
  have ran : (Store.list "").run.run store = (.ok names, store) := by
    rw [Store.list, Store.run_checked, noFault, if_neg Bool.false_ne_true]
    change (store.files.list "", store) = _
    rw [listed]
  rw [tableNames, Store.run_return, TableM.onFiles, Store.run_adapt, ran]
  exact Prod.ext (congrArg Except.ok (List.filter_eq_self.mpr named)) rfl

/-- Removing a table says whether it was listed. -/
theorem run_dropTable (unfaulted : store.faults = []) (listed : store.files.list "" = .ok names)
    (named : ∀ name ∈ names, FileName.isSegment name = true) {database : Database} {name : String}
    {table : Table} (opened : database.table name = .ok table)
    (removed : (store.files.deleteAll name).1 = .ok ()) :
    (database.dropTable name).run.run store =
      (.ok (names.contains name), { store with
        files := (store.files.deleteAll name).2
        journal := store.journal ++ [.tableDropped name] }) := by
  obtain ⟨rfl, -⟩ := Table.of_ofName opened
  have ran := @Table.run_drop ⟨name, database.options⟩ store unfaulted removed
  rw [dropTable, opened]
  change ((tableNames >>= _ : TableM Bool)).run.run store = _
  rw [Store.run_bind, run_tableNames unfaulted listed named]
  dsimp only
  rw [Store.run_bind, ran]
  rfl

end Database

namespace Session

/-- After every program, the tables are listed in ascending order: in memory those that hold a row
or an index, on a disk those that have held one since they were last removed. A table that is
removed is answered to have been there if it was listed, and is not listed any more, while all
others still are. -/
theorem tableNames_and_dropTable {medium : Medium} {program : List Step}
    (admitted : medium.AdmitsProgram program) (hasRoot : medium.HasRoot) {files : Files}
    (fresh : medium.Holds (fun _ => none) files) (unused : files.list "" = .ok [])
    (probes : List Bool) :
    let store := Store.probing files probes
    let reached := ((start.run program).run store).2
    ∃ names, Database.tableNames.run.run reached = (.ok names, reached) ∧
      names.Pairwise (· < ·) ∧
      (∀ name, name ∈ names ↔
        FileName.isSegment name = true ∧ medium.Lists program store name) ∧
      ∀ (database : Database) name table, database.table name = .ok table →
        medium.Admits name →
        let dropped := (database.dropTable name).run.run reached
        dropped.1 = .ok (names.contains name) ∧
          (Database.tableNames.run.run dropped.2).1 = .ok (names.filter (· ≠ name)) := by
  intro store reached
  obtain ⟨holds, unfaulted, -⟩ := @reach_spec program store medium admitted fresh rfl
    program.length
  have whole : (reach program store program.length).2 = reached := by
    rw [reach, List.take_length]
  rw [whole] at holds unfaulted
  obtain ⟨names, listed, ascending, members⟩ := holds.list_root hasRoot
  have named : ∀ name ∈ names, FileName.isSegment name = true :=
    fun name member => ((members name).mp member).1
  refine ⟨names, Database.run_tableNames unfaulted listed named, ascending, fun name => ?_,
    fun database name table opened admits => ?_⟩
  · rw [members]
    refine and_congr_right fun isName => ?_
    cases medium with
    | memory =>
        rw [holds.keeps_memory_iff, Ledger.exists_content_iff isName, ← holds.hasTable_iff isName]
        rfl
    | disk root =>
        have absent : files.inRoot? name = none := by
          obtain ⟨none, alsoListed, -, nothing⟩ := fresh.list_root hasRoot
          cases unused.symm.trans alsoListed
          refine fresh.inRoot?_eq_none fun there => ?_
          have kept := fresh.keeps_disk_iff.mpr there
          exact List.not_mem_nil ((nothing name).mpr ⟨isName, kept⟩)
        rw [holds.keeps_disk_iff, ← whole]
        exact inRoot?_reach_iff admitted fresh rfl isName absent (Nat.le_refl _)
  · obtain ⟨rfl, isTable⟩ := Table.of_ofName opened
    obtain ⟨after, deleted, held⟩ := holds.deleteAll isTable admits
    have removed : (reached.files.deleteAll name).1 = .ok () := by rw [deleted]
    rw [Database.run_dropTable unfaulted listed named opened removed]
    refine ⟨rfl, ?_⟩
    obtain ⟨others, alsoListed, alsoAscending, alsoMembers⟩ := held.list_root hasRoot
    have left : others = names.filter (· ≠ name) := by
      refine eq_of_ascending alsoAscending (ascending.filter _) fun other => ?_
      have keeps := holds.keeps_deleteAll isTable admits other
      rw [deleted] at keeps
      rw [alsoMembers, keeps, List.mem_filter, members, decide_eq_true_eq, and_assoc]
    have after := @Database.run_tableNames
      { reached with files := after, journal := reached.journal ++ [.tableDropped name] } others
      unfaulted alsoListed fun other member => ((alsoMembers other).mp member).1
    rw [deleted, ← left]
    exact congrArg Prod.fst after

/-- A program that removes the only row of a table. -/
def emptying : List Step :=
  [.handle "people" .default, .call 0 (.insert (agedRow 1)), .call 0 (.erase .first)]

/-- After this program, a disk lists the tables that have held a row since they were removed. -/
theorem tableNames_and_dropTable_emptying :
    let store := Store.probing (.disk .empty "data") []
    let reached := ((start.run emptying).run store).2
    ∃ names, Database.tableNames.run.run reached = (.ok names, reached) ∧
      (∀ name, name ∈ names ↔
        FileName.isSegment name = true ∧ HeldSinceRemoval emptying store 3 name) ∧
      ((Database.dropTable ⟨.default⟩ "people").run.run reached).1 =
        .ok (names.contains "people") := by
  have short : "people".utf8ByteSize ≤ Disk.nameLimit := by decide
  have admitted : (Medium.disk "data").AdmitsProgram emptying := by
    refine Medium.admitsProgram_disk (by decide) (fun name options opened => ?_)
      (fun handle column called => ?_)
    · obtain ⟨named, -⟩ : name = "people" ∧ options = .default := by
        simpa [emptying] using opened
      exact named ▸ short
    · simp [emptying] at called
  have admits : (Medium.disk "data").AdmitsTable "people" :=
    Medium.admitsTable_disk (by decide) (by decide) short
  obtain ⟨names, listed, -, members, drops⟩ := @tableNames_and_dropTable (.disk "data") emptying
    admitted ⟨by decide, by decide⟩ (.disk .empty "data") holds_empty_data (by rfl) []
  exact ⟨names, listed, members, (drops ⟨.default⟩ "people" agedPeople rfl admits.directory).1⟩

/-- What this program leaves on a disk. -/
def emptied : Store :=
  ((start.run emptying).run (.ofFiles (.disk .empty "data"))).2

/-- A disk still lists a table that has neither rows nor indexes any more, and answers that it was
there when it is removed. -/
theorem bare_table_listed_on_disk :
    (agedPeople.isEmpty.run.run emptied).1.toOption = some true ∧
      (agedPeople.indexColumns.run.run emptied).1.toOption = some [] ∧
      (Database.tableNames.run.run emptied).1.toOption = some ["people"] ∧
      ((Database.dropTable ⟨.default⟩ "people").run.run emptied).1.toOption = some true :=
  ⟨by decide +kernel, by decide +kernel, by decide +kernel, by decide +kernel⟩

end Session

end TableStore
