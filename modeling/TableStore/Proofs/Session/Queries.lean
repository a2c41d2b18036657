/-
# Queries mean what they were asked for

In the state that any program reaches, every query that was kept answers what its chain of calls
asks for by the rows that the tables show, whatever indexes there were when it was built and are
when it is run. Removing its rows and merging changes into them answer by the rows before, change
exactly the rows that are chosen among these, and leave indexes that agree with the rows.
-/

import TableStore.Proofs.Session.Outline
import TableStore.Proofs.Session.Simulation

namespace TableStore

open Ledger

/-- Whether a query does what it is asked for, besides looking things up in indexes. -/
structure Query.Serves (medium : Medium) (query : Query) (request : Request) : Prop where
  valid : query.Valid medium
  scanning : query.scanning = request.scanned

namespace Query.Serves

variable {medium : Medium} {query : Query} {request : Request}
  (serves : query.Serves medium request) (ledgers : String → Ledger)

include serves

/-- A query is on the table that is asked for. -/
theorem table : query.table = request.table := by
  rw [← query.table_scanning, serves.scanning, request.scanned_eq]
  rfl

/-- A query looks for what the plan of the request looks for. -/
theorem scanning_plan : query.plan.scanning = request.plan := by
  rw [← query.plan_scanning, serves.scanning, request.scanned_eq]
  rfl

/-- A query selects the rows that the request chooses. -/
theorem map_selected :
    ((ledgers query.table.name).selected query.plan).map (fun entry => (entry.1, entry.2.row)) =
      request.chosen fun name => (ledgers name).entries := by
  rw [← request.map_selected_plan, ← Ledger.selected_scanning, serves.scanning_plan, serves.table]

/-- A query answers what the request is answered. -/
theorem rowsIn : query.rowsIn ledgers = request.answer fun name => (ledgers name).entries := by
  rw [← query.rowsIn_scanning, serves.scanning, request.rowsIn_scanned]

/-- A query shows a row as the request does. -/
theorem project : query.plan.project = request.shown := by
  rw [← query.plan.project_scanning, serves.scanning_plan, request.project_plan]

/-- A query joins rows as the request does. -/
theorem applyAll (own : List Row) :
    Join.applyAll query.joins (Join.rowsInAll ledgers query.joins) own =
      request.joined (fun name => (ledgers name).entries) own := by
  have joins : Join.scanningAll query.joins = request.joins := by
    rw [← query.joins_scanning, serves.scanning, request.scanned_eq]
    rfl
  rw [← request.applyAll_joins, ← joins, rowsInAll_scanningAll, applyAll_scanningAll]

/-- The row under an identifier after the rows of a query were replaced. -/
theorem row?_ledgerAfter (next : StoredRow → Option StoredRow) (id : RowId) :
    (query.ledgerAfter ledgers next).row? id =
      if id ∈ (request.chosen fun name => (ledgers name).entries).map Prod.fst then
        ((ledgers request.table.name).rows[id]?.bind next).map StoredRow.row
      else (ledgers request.table.name).row? id := by
  have chosen : ((ledgers query.table.name).selected query.plan).map Prod.fst =
      (request.chosen fun name => (ledgers name).entries).map Prod.fst := by
    rw [← serves.map_selected, List.map_map]
    rfl
  rw [row?, getElem?_ledgerAfter, chosen, serves.table]
  split <;> rfl

/-- After the rows of a query were replaced, the own table shows what was put in place of the
chosen rows, and all other tables show what they did. -/
theorem showsAll_ledgerAfter {next : StoredRow → Option StoredRow} {own : List (RowId × Row)}
    {store : Store}
    (holds : medium.Holds (content (Function.update ledgers query.table.name
      (query.ledgerAfter ledgers next))) store.files) (unfaulted : store.faults = [])
    (ascending : Table.Ascending (own.map Prod.fst))
    (same : ∀ id row, (id, row) ∈ own ↔ (query.ledgerAfter ledgers next).row? id = some row) :
    medium.ShowsAll store
      (Function.update (fun name => (ledgers name).entries) request.table.name own) := by
  intro table isTable admits
  rw [serves.table] at holds
  by_cases here : table.name = request.table.name
  · rw [here, Function.update_self]
    refine Table.shows_of_mem_iff isTable admits holds unfaulted ascending fun id row => ?_
    rw [here, Function.update_self, same]
  · have shown := Table.shows_entries isTable admits holds unfaulted
    rw [Function.update_of_ne here] at shown
    rwa [Function.update_of_ne here]

/-- After the rows of a query were removed, the rows that were not chosen remain. -/
theorem showsAll_remaining {store : Store}
    (holds : medium.Holds (content (Function.update ledgers query.table.name
      (query.ledgerAfter ledgers fun _ => none))) store.files) (unfaulted : store.faults = []) :
    medium.ShowsAll store (Function.update (fun name => (ledgers name).entries)
      request.table.name (request.remaining fun name => (ledgers name).entries)) := by
  refine serves.showsAll_ledgerAfter ledgers holds unfaulted ?_ fun id row => ?_
  · exact List.Pairwise.sublist (List.filter_sublist.map Prod.fst) (ascending_entries _)
  · rw [Request.mem_remaining_iff, mem_entries_iff, serves.row?_ledgerAfter]
    split
    · next chosen => simp [chosen]
    · next left => simp [left]

/-- After changes were merged into the rows of a query, the chosen rows have them. -/
theorem showsAll_changed {changes : StoredRow} {store : Store}
    (holds : medium.Holds (content (Function.update ledgers query.table.name
      (query.ledgerAfter ledgers fun old => some (old.merge changes)))) store.files)
    (unfaulted : store.faults = []) :
    medium.ShowsAll store (Function.update (fun name => (ledgers name).entries)
      request.table.name (request.changed (fun name => (ledgers name).entries) changes.row)) := by
  refine serves.showsAll_ledgerAfter ledgers holds unfaulted ?_ fun id row => ?_
  · rw [Request.map_fst_changed]
    exact ascending_entries _
  · rw [Request.mem_changed_iff, serves.row?_ledgerAfter]
    split
    · simp only [mem_entries_iff, row?, Option.map_bind, Option.bind_eq_some_iff,
        Option.map_eq_some_iff, exists_exists_and_eq_and]
      exact exists_congr fun stored => and_congr_right fun _ => Option.some_inj.symm
    · exact mem_entries_iff

end Query.Serves

namespace Session

variable {medium : Medium} {program : List Step} {files : Files}

/-- In the state that a program reaches, the tables have ledgers, and every query that was kept
does what it was asked for. -/
theorem exists_ledgers_serves (admitted : medium.AdmitsProgram program)
    (fresh : medium.Holds (fun _ => none) files) (probes : List Bool) :
    let reached := (start.run program).run (.probing files probes)
    ∃ ledgers, medium.Holds (content ledgers) reached.2.files ∧ reached.2.faults = [] ∧
      List.Forall₂ (Query.Serves medium) reached.1.2.queries
        (Outline.ofProgram program).requests := by
  intro reached
  obtain ⟨left, held, unfaulted, -, rfl, follows⟩ :=
    ensures_run_start admitted (Store.probing files probes) fresh rfl
  refine ⟨(Ideal.start.run program).2.ledgers, held, unfaulted, ?_⟩
  have same : reached.1.2.queries.map Query.scanning =
      (Outline.ofProgram program).requests.map Request.scanned :=
    follows.queries.symm.trans (Outline.describes_ofProgram program).queries
  rw [← List.forall₂_eq_eq_eq, List.forall₂_map_left_iff, List.forall₂_map_right_iff] at same
  have both := (List.forall₂_and_left reached.1.2.queries _).mpr ⟨follows.valid, same⟩
  exact both.imp fun query request ⟨valid, scanning⟩ => ⟨valid, scanning⟩

/-- In the state that a program reaches which starts without files, whatever probes fail, the
tables show rows by which every query that was kept answers what its chain of calls asks for, and
what any chain asks for that is alike. -/
theorem get_answers_request (admitted : medium.AdmitsProgram program)
    (fresh : medium.Holds (fun _ => none) files) (probes : List Bool) :
    let reached := (start.run program).run (.probing files probes)
    ∃ rows, medium.ShowsAll reached.2 rows ∧
      List.Forall₂ (fun query request =>
        (query.get.run.run reached.2).1 = .ok (request.answer rows) ∧
          ∀ other, request.Alike other →
            (query.get.run.run reached.2).1 = .ok (other.answer rows))
        reached.1.2.queries (Outline.ofProgram program).requests := by
  intro reached
  obtain ⟨ledgers, holds, unfaulted, each⟩ := exists_ledgers_serves admitted fresh probes
  refine ⟨fun name => (ledgers name).entries, showsAll_entries holds unfaulted, ?_⟩
  refine each.imp fun query request serves => ?_
  have answered := (@Query.runs_get medium ledgers query serves.valid).answer holds unfaulted
  rw [serves.rowsIn] at answered
  exact ⟨answered, fun other alike => alike.answer_eq ▸ answered⟩

/-- A row with an age. -/
def agedRow (years : UInt64) : Row :=
  Row.empty.insert "age" (.number (.ofUInt64 years))

/-- The criteria that a row has an age. -/
def ofAge (years : UInt64) : Criteria :=
  Criteria.empty.insert "age" (.literal (.number (.ofUInt64 years)))

/-- The handle of the programs below. -/
def agedPeople : Table :=
  ⟨"people", .default⟩

/-- A program that asks twice for the first of two people of an age, in two orders of calls, and
joins both queries with all people. -/
def askingTwice : List Step :=
  [.handle "people" .default, .call 0 (.insert (agedRow 1)), .call 0 (.insert (agedRow 1)),
    .call 0 (.addIndex "age"), .query 0, .filter 0 (ofAge 1), .limit 1 1, .join 2 0 fun _ _ => true,
    .limit 0 2, .join 4 0 fun _ _ => true, .filter 5 (ofAge 1), .limit 6 1]

/-- The queries of this program answer what they are asked for, though the first probe fails. -/
theorem get_answers_askingTwice :
    let reached := (start.run askingTwice).run (.probing (.memory .empty) [true])
    let everyone := Request.all agedPeople
    let first := (everyone.filter (ofAge 1)).limit 1
    let second := (everyone.limit 2).join everyone fun _ _ => true
    ∃ rows, Medium.memory.ShowsAll reached.2 rows ∧
      List.Forall₂ (fun query request =>
        (query.get.run.run reached.2).1 = .ok (request.answer rows) ∧
          ∀ other, request.Alike other →
            (query.get.run.run reached.2).1 = .ok (other.answer rows))
        reached.1.2.queries
        [everyone, everyone.filter (ofAge 1), first, first.join everyone fun _ _ => true,
          everyone.limit 2, second, second.filter (ofAge 1), (second.filter (ofAge 1)).limit 1] :=
  @get_answers_request .memory askingTwice (.memory .empty)
    (Medium.admitsProgram_memory askingTwice) (.memory .empty) [true]

/-- In the state that a program reaches which starts without files, whatever probes fail, removing
the rows of a query answers what the query answers, by the rows that the tables show before. It
takes away exactly the chosen rows, and afterwards the indexes agree with the rows. -/
theorem delete_removes_chosen (admitted : medium.AdmitsProgram program)
    (fresh : medium.Holds (fun _ => none) files) (probes : List Bool) :
    let reached := (start.run program).run (.probing files probes)
    ∃ rows, medium.ShowsAll reached.2 rows ∧
      List.Forall₂ (fun query request =>
        let removed := query.delete.run.run reached.2
        removed.1 = (query.get.run.run reached.2).1 ∧ removed.1 = .ok (request.answer rows) ∧
          medium.ShowsAll removed.2
            (Function.update rows request.table.name (request.remaining rows)) ∧
          medium.IndexesAgree removed.2)
        reached.1.2.queries (Outline.ofProgram program).requests := by
  intro reached
  obtain ⟨ledgers, holds, unfaulted, each⟩ := exists_ledgers_serves admitted fresh probes
  refine ⟨fun name => (ledgers name).entries, showsAll_entries holds unfaulted, ?_⟩
  refine each.imp fun query request serves => ?_
  have answered := (@Query.runs_get medium ledgers query serves.valid).answer holds unfaulted
  have deleted := @Query.runs_delete medium ledgers query serves.valid
  have kept := deleted.unfaulted holds unfaulted
  refine ⟨(deleted.answer holds unfaulted).trans answered.symm, ?_,
    serves.showsAll_remaining ledgers (deleted.holds holds unfaulted) kept,
    indexesAgree (deleted.holds holds unfaulted) kept⟩
  rw [← serves.rowsIn]
  exact deleted.answer holds unfaulted

/-- A program that joins the first of two people of an age with all people, to whom a third is
added afterwards. -/
def joiningThemselves : List Step :=
  [.handle "people" .default, .call 0 (.insert (agedRow 1)), .call 0 (.insert (agedRow 1)),
    .call 0 (.addIndex "age"), .query 0, .filter 0 (ofAge 1), .limit 1 1, .join 2 0 fun _ _ => true,
    .call 0 (.insert (agedRow 2))]

/-- A disk takes this program. -/
theorem admitsProgram_joiningThemselves :
    (Medium.disk "data").AdmitsProgram joiningThemselves := by
  refine Medium.admitsProgram_disk (by decide) (fun name options opened => ?_)
    (fun handle column called => ?_)
  · obtain ⟨named, -⟩ : name = "people" ∧ options = .default := by
      simpa [joiningThemselves] using opened
    rw [named]
    decide
  · obtain ⟨-, named⟩ : handle = 0 ∧ column = "age" := by
      simpa [joiningThemselves] using called
    rw [named]
    decide

/-- Below its root, a disk without files holds none. -/
theorem holds_empty_data :
    (Medium.disk "data").Holds (fun _ => none) (.disk .empty "data") := by
  have parts : HostPath.partsOf "data" = ["data"] := by decide
  refine .disk (Disk.holds_empty ?_ ?_ ?_)
  · rw [parts]
    decide
  · rw [parts]
    decide
  · rw [parts]
    decide

/-- On a disk, removing the rows of these queries removes the chosen people. -/
theorem delete_removes_joiningThemselves :
    let medium := Medium.disk "data"
    let reached := (start.run joiningThemselves).run (.probing (.disk .empty "data") [])
    let everyone := Request.all agedPeople
    let first := (everyone.filter (ofAge 1)).limit 1
    ∃ rows, medium.ShowsAll reached.2 rows ∧
      List.Forall₂ (fun query request =>
        let removed := query.delete.run.run reached.2
        removed.1 = (query.get.run.run reached.2).1 ∧ removed.1 = .ok (request.answer rows) ∧
          medium.ShowsAll removed.2
            (Function.update rows request.table.name (request.remaining rows)) ∧
          medium.IndexesAgree removed.2)
        reached.1.2.queries
        [everyone, everyone.filter (ofAge 1), first, first.join everyone fun _ _ => true] :=
  @delete_removes_chosen (.disk "data") joiningThemselves (.disk .empty "data")
    admitsProgram_joiningThemselves holds_empty_data []

/-- In the state that a program reaches which starts without files, whatever probes fail, merging
changes of scalars into the rows of a query chooses them, and joins them, by the rows that the
tables show before; exactly the chosen rows are merged with the changes, and afterwards the
indexes agree with the rows. Other changes are refused if any row is chosen, and change nothing. -/
theorem set_changes_chosen (admitted : medium.AdmitsProgram program)
    (fresh : medium.Holds (fun _ => none) files) (probes : List Bool) (changes : Row) :
    let reached := (start.run program).run (.probing files probes)
    ∃ rows, medium.ShowsAll reached.2 rows ∧
      List.Forall₂ (fun query request =>
        let updated := (query.set changes).run.run reached.2
        medium.IndexesAgree updated.2 ∧
          match changes.firstComposite? with
          | none =>
              updated.1 = .ok (request.joined rows
                ((request.chosen rows).map fun entry => request.shown (entry.2.merge changes))) ∧
              medium.ShowsAll updated.2
                (Function.update rows request.table.name (request.changed rows changes))
          | some column =>
              updated.1 = (if (request.chosen rows).isEmpty then .ok []
                else .error (.table (.invalidValue column))) ∧
              medium.ShowsAll updated.2 rows ∧
              ∃ content, medium.Holds content reached.2.files ∧
                medium.Holds content updated.2.files)
        reached.1.2.queries (Outline.ofProgram program).requests := by
  intro reached
  obtain ⟨ledgers, holds, unfaulted, each⟩ := exists_ledgers_serves admitted fresh probes
  refine ⟨fun name => (ledgers name).entries, showsAll_entries holds unfaulted, ?_⟩
  refine each.imp fun query request serves => ?_
  cases composite : changes.firstComposite? with
  | none =>
      obtain ⟨stored, accepted, rfl⟩ :=
        StoredRow.exists_ofRow query.table.options.prettyRows composite
      have updated := @Query.runs_set medium ledgers query serves.valid stored.row stored accepted
      have answered := updated.answer holds unfaulted
      have kept := updated.unfaulted holds unfaulted
      have left := updated.holds holds unfaulted
      refine ⟨indexesAgree left kept, ?_, serves.showsAll_changed ledgers left kept⟩
      rw [serves.applyAll, serves.project] at answered
      rw [← serves.map_selected, List.map_map]
      exact answered
  | some column =>
      have refused := @Query.runs_set_error medium ledgers query serves.valid changes _
        (StoredRow.ofRow_of_composite _ composite)
      have answered := refused.answer holds unfaulted
      have kept := refused.unfaulted holds unfaulted
      have same := refused.holds holds unfaulted
      rw [← List.isEmpty_map, serves.map_selected] at answered
      exact ⟨indexesAgree same kept, answered, showsAll_entries same kept, content ledgers, holds,
        same⟩

/-- A program that joins all people of an age that has an index with all people. -/
def agingTogether : List Step :=
  [.handle "people" .default, .call 0 (.insert (agedRow 1)), .call 0 (.insert (agedRow 1)),
    .call 0 (.addIndex "age"), .query 0, .filter 0 (ofAge 1), .join 1 0 fun _ _ => true]

/-- The chosen people grow older at once, and are joined with all people as they were. -/
theorem set_changes_agingTogether :
    let reached := (start.run agingTogether).run (.probing (.memory .empty) [])
    let everyone := Request.all agedPeople
    ∃ rows, Medium.memory.ShowsAll reached.2 rows ∧
      List.Forall₂ (fun query request =>
        let updated := (query.set (agedRow 2)).run.run reached.2
        Medium.memory.IndexesAgree updated.2 ∧
          updated.1 = .ok (request.joined rows
            ((request.chosen rows).map fun entry => request.shown (entry.2.merge (agedRow 2)))) ∧
          Medium.memory.ShowsAll updated.2
            (Function.update rows request.table.name (request.changed rows (agedRow 2))))
        reached.1.2.queries
        [everyone, everyone.filter (ofAge 1),
          (everyone.filter (ofAge 1)).join everyone fun _ _ => true] :=
  @set_changes_chosen .memory agingTogether (.memory .empty)
    (Medium.admitsProgram_memory agingTogether) (.memory .empty) [] (agedRow 2)

end Session

end TableStore
