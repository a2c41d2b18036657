/-
# Indexes are transparent

A program shows the same with and without calls that add and remove indexes, wherever they stand,
and whatever probes for an index fail. What a session comes to has no room for a difference: its
queries evaluate everything row by row, and no other call reads which columns have an index.
-/

import TableStore.Proofs.Session.Simulation

namespace TableStore

/-- Whether a call is anything but adding or removing an index. -/
def Call.keepsIndexes : Call → Bool
  | .addIndex _ => false
  | .removeIndex _ => false
  | _ => true

/-- Whether a step is anything but adding or removing an index. -/
def Step.keepsIndexes : Step → Bool
  | .call _ operation => operation.keepsIndexes
  | _ => true

namespace Ledger

variable {first second : Ledger}

/-- The identifier of the next row does not depend on the indexes. -/
theorem freshId_congr_rows (same : first.rows = second.rows) :
    first.freshId = second.freshId := by
  rw [freshId, freshId, same]

/-- Whether a row is there does not depend on the indexes. -/
theorem require_congr_rows (same : first.rows = second.rows) (id : RowId) :
    first.require id = second.require id := by
  rw [require, require, same]

/-- The rows after something was put under an identifier do not depend on the indexes. -/
theorem rows_put_congr (same : first.rows = second.rows) (id : RowId)
    (stored? : Option StoredRow) : (first.put id stored?).rows = (second.put id stored?).rows := by
  unfold put
  rw [same]

/-- What a call does to the rows, and what it answers, does not depend on the indexes, unless it
adds or removes one. -/
theorem step_congr_rows (same : first.rows = second.rows) (options : TableOptions) {call : Call}
    (keeps : call.keepsIndexes = true) :
    (first.step options call).map (fun result => (result.1, result.2.rows)) =
      (second.step options call).map fun result => (result.1, result.2.rows) := by
  cases call with
  | insert row =>
      simp only [step, freshId_congr_rows same]
      cases StoredRow.ofRow options.prettyRows row with
      | error error => rfl
      | ok stored =>
          cases second.freshId with
          | error error => rfl
          | ok id => exact congrArg Except.ok (congrArg _ (rows_put_congr same id _))
  | update id changes =>
      simp only [step, require_congr_rows same]
      cases StoredRow.ofRow options.prettyRows changes with
      | error error => rfl
      | ok stored =>
          cases second.require id with
          | error error => rfl
          | ok old => exact congrArg Except.ok (congrArg _ (rows_put_congr same id _))
  | erase id =>
      simp only [step, require_congr_rows same]
      cases second.require id with
      | error error => rfl
      | ok old => exact congrArg Except.ok (congrArg _ (rows_put_congr same id none))
  | write id row? =>
      cases row? with
      | none =>
          simp only [step, row?, same]
          exact congrArg Except.ok (congrArg _ (rows_put_congr same id none))
      | some row =>
          simp only [step, row?, same]
          cases StoredRow.ofRow options.prettyRows row with
          | error error => rfl
          | ok stored => exact congrArg Except.ok (congrArg _ (rows_put_congr same id _))
  | read id =>
      simp only [step, row?, same]
      exact congrArg Except.ok (congrArg _ same)
  | rowIds =>
      simp only [step, same]
      exact congrArg Except.ok (congrArg _ same)
  | size =>
      simp only [step, same]
      exact congrArg Except.ok (congrArg _ same)
  | addIndex column => cases keeps
  | removeIndex column => cases keeps
  | drop => rfl

/-- The answer to a call does not depend on the indexes, unless it adds or removes one. -/
theorem answer_congr_rows (same : first.rows = second.rows) (options : TableOptions) {call : Call}
    (keeps : call.keepsIndexes = true) :
    first.answer options call = second.answer options call := by
  have steps := congrArg (Except.map Prod.fst) (step_congr_rows same options keeps)
  revert steps
  rw [answer, answer]
  cases first.step options call <;> cases second.step options call <;> exact id

/-- The rows after a call do not depend on the indexes, unless it adds or removes one. -/
theorem rows_after_congr (same : first.rows = second.rows) (options : TableOptions) {call : Call}
    (keeps : call.keepsIndexes = true) :
    (first.after options call).rows = (second.after options call).rows := by
  have steps := step_congr_rows same options keeps
  revert steps
  rw [after, after]
  cases first.step options call with
  | error error =>
      cases second.step options call with
      | error other => exact fun _ => same
      | ok result =>
          intro impossible
          cases impossible
  | ok result =>
      cases second.step options call with
      | error other =>
          intro impossible
          cases impossible
      | ok other => exact fun steps => congrArg Prod.snd (Except.ok.inj steps)

/-- Adding or removing an index does not change the rows. -/
theorem rows_after_of_not_keepsIndexes (ledger : Ledger) (options : TableOptions) {call : Call}
    (index : call.keepsIndexes = false) : (ledger.after options call).rows = ledger.rows := by
  cases call with
  | addIndex column =>
      by_cases isColumn : FileName.isSegment column = true
      · simp only [after, step, dif_pos isColumn, addColumn]
      · simp only [after, step, dif_neg isColumn]
  | removeIndex column => rfl
  | _ => cases index

/-- The rows that a plan selects do not depend on the indexes. -/
theorem selected_congr_rows (same : first.rows = second.rows) (plan : Plan) :
    first.selected plan = second.selected plan := by
  rw [selected, selected, same]

/-- What is put in place of rows does not depend on the indexes. -/
theorem rows_replaceAll_congr (same : first.rows = second.rows)
    (next : StoredRow → Option StoredRow) (entries : List (RowId × StoredRow)) :
    (first.replaceAll next entries).rows = (second.replaceAll next entries).rows := by
  induction entries generalizing first second with
  | nil => exact same
  | cons entry rest ih => exact ih (rows_put_congr same entry.1 (next entry.2))

end Ledger

namespace Query

variable {first second : String → Ledger}

mutual

/-- The rows of a query do not depend on the indexes. -/
theorem rowsIn_congr_rows (same : ∀ name, (first name).rows = (second name).rows) :
    ∀ query : Query, query.rowsIn first = query.rowsIn second
  | .mk table plan joins => by
      rw [rowsIn, rowsIn, rowsInAll_congr_rows same joins,
        Ledger.selected_congr_rows (same table.name)]

/-- The rows of queries that are joined with do not depend on the indexes. -/
theorem rowsInAll_congr_rows (same : ∀ name, (first name).rows = (second name).rows) :
    ∀ joins : List Join, Join.rowsInAll first joins = Join.rowsInAll second joins
  | [] => rfl
  | .mk foreign _ :: rest => by
      rw [Join.rowsInAll, Join.rowsInAll, rowsIn_congr_rows same foreign,
        rowsInAll_congr_rows same rest]

end

/-- The rows after those of a query were replaced do not depend on the indexes. -/
theorem rows_ledgerAfter_congr (same : ∀ name, (first name).rows = (second name).rows)
    (query : Query) (next : StoredRow → Option StoredRow) :
    (query.ledgerAfter first next).rows = (query.ledgerAfter second next).rows := by
  rw [ledgerAfter, ledgerAfter, Ledger.selected_congr_rows (same query.table.name)]
  exact Ledger.rows_replaceAll_congr (same query.table.name) next _

/-- What merging changes answers and does to the rows does not depend on the indexes. -/
theorem setIn_congr_rows (same : ∀ name, (first name).rows = (second name).rows) (query : Query)
    (changes : Row) :
    (query.setIn first changes).map (fun result => (result.1, result.2.rows)) =
      (query.setIn second changes).map fun result => (result.1, result.2.rows) := by
  rw [setIn, setIn]
  simp only [Ledger.selected_congr_rows (same query.table.name), rowsInAll_congr_rows same]
  cases StoredRow.ofRow query.table.options.prettyRows changes with
  | ok stored =>
      exact congrArg Except.ok (congrArg _ (rows_ledgerAfter_congr same query _))
  | error error =>
      simp only []
      split
      · exact congrArg Except.ok (congrArg _ (same query.table.name))
      · rfl

end Query

namespace Ideal

/-- Whether two ideals are the same but for the indexes. -/
structure SameRows (first second : Ideal) : Prop where
  rows : ∀ name, (first.ledgers name).rows = (second.ledgers name).rows
  session : first.session = second.session

variable {first second : Ideal}

/-- Ideals with ledgers of the same rows in place of one stay the same but for the indexes. -/
theorem SameRows.setLedger (same : SameRows first second) (name : String) {ledger other : Ledger}
    (rows : ledger.rows = other.rows) :
    SameRows (first.setLedger name ledger) (second.setLedger name other) where
  rows table := by
    simp only [Ideal.setLedger]
    by_cases here : table = name
    · subst here
      rw [Function.update_self, Function.update_self, rows]
    · rw [Function.update_of_ne here, Function.update_of_ne here, same.rows table]
  session := same.session

/-- Ideals with the same further query stay the same but for the indexes. -/
theorem SameRows.addQuery (same : SameRows first second) (query : Query) :
    SameRows (first.addQuery query) (second.addQuery query) where
  rows := same.rows
  session := congrArg (fun session => session.addQuery query) same.session

/-- Whether two steps show the same and leave the same but for the indexes. -/
def Agree (first second : Outcome × Ideal) : Prop :=
  first.1 = second.1 ∧ SameRows first.2 second.2

/-- Steps agree on a query if they do on every query. -/
theorem agree_withQuery (same : SameRows first second) (number : Nat)
    {next other : Query → Outcome × Ideal} (each : ∀ query, Agree (next query) (other query)) :
    Agree (first.withQuery number next) (second.withQuery number other) := by
  rw [withQuery, withQuery, same.session]
  cases second.session.queries[number]? with
  | none => exact ⟨rfl, same⟩
  | some query => exact each query

/-- Steps agree on a handle if they do on every handle. -/
theorem agree_withHandle (same : SameRows first second) (number : Nat)
    {next other : Table → Outcome × Ideal} (each : ∀ table, Agree (next table) (other table)) :
    Agree (first.withHandle number next) (second.withHandle number other) := by
  rw [withHandle, withHandle, same.session]
  cases second.session.handles[number]? with
  | none => exact ⟨rfl, same⟩
  | some table => exact each table

/-- A step that neither adds nor removes an index does not depend on the indexes. -/
theorem agree_perform (same : SameRows first second) {step : Step}
    (keeps : step.keepsIndexes = true) :
    Agree (first.perform step) (second.perform step) := by
  cases step with
  | handle name options =>
      rw [perform, perform]
      cases Table.ofName name options with
      | error error => exact ⟨rfl, same⟩
      | ok table =>
          exact ⟨rfl, same.rows, congrArg (fun session => session.addHandle table) same.session⟩
  | call handle call =>
      apply agree_withHandle same
      intro table
      have rows := same.rows table.name
      exact ⟨congrArg Outcome.called (Ledger.answer_congr_rows rows table.options keeps),
        same.setLedger table.name (Ledger.rows_after_congr rows table.options keeps)⟩
  | query handle =>
      apply agree_withHandle same
      intro table
      exact ⟨rfl, same.addQuery _⟩
  | filter query criteria =>
      apply agree_withQuery same
      intro query
      exact ⟨rfl, same.addQuery _⟩
  | select query columns =>
      apply agree_withQuery same
      intro query
      exact ⟨rfl, same.addQuery _⟩
  | limit query bound =>
      apply agree_withQuery same
      intro query
      exact ⟨rfl, same.addQuery _⟩
  | join query foreign accepts =>
      apply agree_withQuery same
      intro query
      apply agree_withQuery same
      intro foreign
      exact ⟨rfl, same.addQuery _⟩
  | get query =>
      apply agree_withQuery same
      intro query
      rw [Query.rowsIn_congr_rows same.rows]
      exact ⟨rfl, same⟩
  | count query =>
      apply agree_withQuery same
      intro query
      rw [Query.rowsIn_congr_rows same.rows]
      exact ⟨rfl, same⟩
  | delete query =>
      apply agree_withQuery same
      intro query
      refine ⟨?_, same.setLedger _ (Query.rows_ledgerAfter_congr same.rows query _)⟩
      rw [Query.deleteIn, Query.deleteIn, Query.rowsIn_congr_rows same.rows]
  | set query changes =>
      apply agree_withQuery same
      intro query
      have results := Query.setIn_congr_rows same.rows query changes
      revert results
      cases query.setIn first.ledgers changes with
      | error error =>
          cases query.setIn second.ledgers changes with
          | error other =>
              intro results
              rw [Except.error.inj results]
              exact ⟨rfl, same⟩
          | ok other =>
              intro impossible
              cases impossible
      | ok result =>
          cases query.setIn second.ledgers changes with
          | error other =>
              intro impossible
              cases impossible
          | ok other =>
              intro results
              obtain ⟨rows, ledgers⟩ := Prod.mk.inj (Except.ok.inj results)
              refine ⟨?_, same.setLedger _ ledgers⟩
              exact congrArg (fun rows => Outcome.rows (.ok rows)) rows

/-- Adding or removing an index changes nothing else. -/
theorem sameRows_perform_index (ideal : Ideal) {step : Step} (index : step.keepsIndexes = false) :
    SameRows (ideal.perform step).2 ideal := by
  cases step with
  | call handle operation =>
      rw [perform, withHandle]
      cases ideal.session.handles[handle]? with
      | none => exact ⟨fun _ => rfl, rfl⟩
      | some table =>
          refine ⟨fun name => ?_, rfl⟩
          simp only [setLedger]
          by_cases here : name = table.name
          · subst here
            rw [Function.update_self]
            exact Ledger.rows_after_of_not_keepsIndexes _ table.options index
          · rw [Function.update_of_ne here]
  | _ => cases index

/-- Ideals that are the same but for the indexes are equally good to be compared with. -/
theorem SameRows.trans {third : Ideal} (same : SameRows first second)
    (alsoSame : SameRows second third) : SameRows first third where
  rows name := (same.rows name).trans (alsoSame.rows name)
  session := same.session.trans alsoSame.session

/-- A program shows and leaves the same, but for the indexes, when the steps that add or remove an
index are left out. -/
theorem run_filter_keepsIndexes (same : SameRows first second) (program : List Step) :
    ((first.run program).1.filter fun shown => shown.1.keepsIndexes) =
        (second.run (program.filter Step.keepsIndexes)).1 ∧
      SameRows (first.run program).2 (second.run (program.filter Step.keepsIndexes)).2 := by
  induction program generalizing first second with
  | nil => exact ⟨rfl, same⟩
  | cons step rest ih =>
      cases keeps : step.keepsIndexes with
      | false =>
          have skipped := (sameRows_perform_index first keeps).trans same
          rw [List.filter_cons_of_neg (by simp [keeps]), run,
            List.filter_cons_of_neg (by simp [keeps])]
          exact ih skipped
      | true =>
          obtain ⟨shown, next⟩ := agree_perform same keeps
          obtain ⟨others, last⟩ := ih next
          rw [List.filter_cons_of_pos keeps, run, run]
          refine ⟨?_, last⟩
          simp only [List.filter_cons, keeps, if_true, others, shown]

end Ideal

namespace Ledger

/-- The files of the rows do not depend on the indexes. -/
theorem content_congr_rows {first second : String → Ledger}
    (same : ∀ name, (first name).rows = (second name).rows) {place : Place}
    (area : place.area = .rows) : content first place = content second place := by
  simp [content, area, same]

end Ledger

namespace Session

/-- A program that starts without files shows the same, and leaves the same row files, when the
calls that add or remove an index are left out. This holds wherever these calls stand and whether
they are rejected, and whatever probes fail on either side. -/
theorem run_transparent {medium : Medium} {program : List Step}
    (admitted : medium.AdmitsProgram program) {files others : Files}
    (fresh : medium.Holds (fun _ => none) files) (alsoFresh : medium.Holds (fun _ => none) others)
    (probes otherProbes : List Bool) :
    let indexed := (start.run program).run (.probing files probes)
    let plain := (start.run (program.filter Step.keepsIndexes)).run (.probing others otherProbes)
    (indexed.1.1.filter fun shown => shown.1.keepsIndexes) = plain.1.1 ∧
      ∃ left leftPlain, medium.Holds left indexed.2.files ∧
        medium.Holds leftPlain plain.2.files ∧
        ∀ place : Place, place.area = .rows → left place = leftPlain place := by
  intro indexed plain
  have alsoAdmitted : medium.AdmitsProgram (program.filter Step.keepsIndexes) := by
    intro name options opened isTable
    obtain ⟨admits, calls⟩ := admitted name options (List.mem_of_mem_filter opened) isTable
    exact ⟨admits, fun handle call called => calls handle call (List.mem_of_mem_filter called)⟩
  obtain ⟨left, held, -, shown, kept, -⟩ :=
    ensures_run_start admitted (Store.probing files probes) fresh rfl
  obtain ⟨leftPlain, heldPlain, -, shownPlain, keptPlain, -⟩ :=
    ensures_run_start alsoAdmitted (Store.probing others otherProbes) alsoFresh rfl
  have same : Ideal.SameRows .start .start := ⟨fun _ => rfl, rfl⟩
  obtain ⟨outcomes, rows⟩ := Ideal.run_filter_keepsIndexes same program
  refine ⟨?_, left, leftPlain, held, heldPlain, fun place area => ?_⟩
  · rw [show indexed.1.1 = _ from shown, show plain.1.1 = _ from shownPlain, outcomes]
  · rw [kept, keptPlain]
    exact Ledger.content_congr_rows rows.rows area

/-- A program that builds a query on the age with an index for it, and removes the index before
the query is run. -/
def losingIndex : List Step :=
  [.handle "people" .default, .call 0 (.insert (Row.empty.insert "age" (.number (.ofUInt64 1)))),
    .call 0 (.addIndex "age"), .query 0,
    .filter 0 (Criteria.empty.insert "age" (.literal (.number (.ofUInt64 1)))),
    .call 0 (.removeIndex "age"), .get 1]

/-- This program shows the same as the one without the index, in which no probe fails. -/
theorem run_transparent_losingIndex :
    let indexed := (start.run losingIndex).run (.probing (.memory .empty) [true])
    let plain := (start.run (losingIndex.filter Step.keepsIndexes)).run
      (.probing (.memory .empty) [])
    (indexed.1.1.filter fun shown => shown.1.keepsIndexes) = plain.1.1 ∧
      ∃ left leftPlain, Medium.memory.Holds left indexed.2.files ∧
        Medium.memory.Holds leftPlain plain.2.files ∧
        ∀ place : Place, place.area = .rows → left place = leftPlain place := by
  have fresh : Medium.memory.Holds (fun _ => none) (.memory .empty) := .memory .empty
  exact @run_transparent .memory losingIndex (Medium.admitsProgram_memory losingIndex)
    (.memory .empty) (.memory .empty) fresh fresh [true] []

end Session

end TableStore
