/-
# Rewriting after any program

In the state that a program reaches, updates that follow one another fuse, and a write is undone by
writing what it answered. The second needs that all rows of the table have one layout, which they
have when all handles on it write this layout: nothing else decides how a row is laid out.
-/

import TableStore.Proofs.Session.Invariant
import TableStore.Proofs.Session.Queries
import TableStore.Proofs.Table.Rewriting

namespace TableStore

namespace Ledger

variable {pretty : Bool} {ledger : Ledger}

/-- What is put into a ledger in its layout keeps the layout. -/
theorem Laid.put (laid : ledger.Laid pretty) {id : RowId} {stored? : Option StoredRow}
    (alike : ∀ stored ∈ stored?, stored.pretty = pretty) : (ledger.put id stored?).Laid pretty := by
  intro other stored there
  rw [getElem?_put] at there
  split at there
  · exact alike stored there
  · exact laid other stored there

/-- So does a ledger from which a row is removed. -/
theorem Laid.put_none (laid : ledger.Laid pretty) (id : RowId) : (ledger.put id none).Laid pretty :=
  laid.put fun stored member => absurd member (Option.not_mem_none stored)

/-- Rows that are replaced in their layout keep the layout of a ledger. -/
theorem Laid.replaceAll (laid : ledger.Laid pretty) {next : StoredRow → Option StoredRow}
    (alike : ∀ old, ∀ stored ∈ next old, stored.pretty = pretty)
    (entries : List (RowId × StoredRow)) : (ledger.replaceAll next entries).Laid pretty := by
  induction entries generalizing ledger with
  | nil => exact laid
  | cons entry rest ih => exact ih (laid.put (alike entry.2))

/-- A call through a handle with the layout of a ledger keeps this layout. -/
theorem Laid.after (laid : ledger.Laid pretty) {options : TableOptions}
    (alike : options.prettyRows = pretty) (call : Call) :
    (ledger.after options call).Laid pretty := by
  have accepts : ∀ {row stored}, StoredRow.ofRow options.prettyRows row = .ok stored →
      stored.pretty = pretty :=
    fun accepted => (StoredRow.of_ofRow accepted).2.trans alike
  rw [Ledger.after]
  cases call with
  | insert row =>
      rw [step]
      cases accepted : StoredRow.ofRow options.prettyRows row with
      | error => exact laid
      | ok stored =>
          cases ledger.freshId with
          | error => exact laid
          | ok id =>
              refine laid.put ?_
              rintro _ ⟨⟩
              rw [StoredRow.pretty_withId, accepts accepted]
  | update id changes =>
      rw [step]
      cases accepted : StoredRow.ofRow options.prettyRows changes with
      | error => exact laid
      | ok stored =>
          cases ledger.require id with
          | error => exact laid
          | ok old =>
              have laidOut := accepts accepted
              refine laid.put ?_
              rintro _ ⟨⟩
              exact laidOut
  | erase id =>
      rw [step]
      cases ledger.require id with
      | error => exact laid
      | ok old => exact laid.put_none id
  | write id row? =>
      cases row? with
      | none => exact laid.put_none id
      | some row =>
          rw [step]
          cases accepted : StoredRow.ofRow options.prettyRows row with
          | error => exact laid
          | ok stored =>
              refine laid.put ?_
              rintro _ ⟨⟩
              exact accepts accepted
  | addIndex column =>
      rw [step]
      by_cases isColumn : FileName.isSegment column = true
      · rw [dif_pos isColumn]
        exact laid
      · rw [dif_neg isColumn]
        exact laid
  | read | rowIds | size | removeIndex => exact laid
  | drop =>
      intro id stored there
      cases there

end Ledger

/-- Whether all rows of a table have one layout, and all handles on it and queries of it write this
layout. -/
structure Ideal.Laid (table : String) (pretty : Bool) (ideal : Ideal) : Prop where
  rows : (ideal.ledgers table).Laid pretty
  handles : ∀ handle ∈ ideal.session.handles, handle.name = table →
    handle.options.prettyRows = pretty
  queries : ∀ query ∈ ideal.session.queries, query.table.name = table →
    query.table.options.prettyRows = pretty

namespace Ideal.Laid

variable {table : String} {pretty : Bool} {ideal : Ideal} (laid : ideal.Laid table pretty)

include laid

/-- The rows of the table have the layout. -/
theorem rows_of_eq {name : String} (same : name = table) : (ideal.ledgers name).Laid pretty :=
  same ▸ laid.rows

/-- A table whose ledger keeps its layout keeps it, whatever becomes of the others. -/
theorem setLedger {name : String} {ledger : Ledger}
    (keeps : name = table → ledger.Laid pretty) :
    (ideal.setLedger name ledger).Laid table pretty where
  rows := by
    change (Function.update ideal.ledgers name ledger table).Laid pretty
    by_cases same : name = table
    · subst same
      rw [Function.update_self]
      exact keeps rfl
    · rw [Function.update_of_ne fun equal => same equal.symm]
      exact laid.rows
  handles := laid.handles
  queries := laid.queries

/-- One more query of the layout may be kept. -/
theorem addQuery {query : Query}
    (alike : query.table.name = table → query.table.options.prettyRows = pretty) :
    (ideal.addQuery query).Laid table pretty where
  rows := laid.rows
  handles := laid.handles
  queries other member := by
    rcases List.mem_append.mp member with old | new
    · exact laid.queries other old
    · exact List.mem_singleton.mp new ▸ alike

/-- One more query on the table of another may be kept. -/
theorem addQuery_of_table {query other : Query} (member : query ∈ ideal.session.queries)
    (same : other.table = query.table) : (ideal.addQuery other).Laid table pretty :=
  laid.addQuery (same ▸ laid.queries query member)

/-- What is done with a query keeps the layout if it does so for every query there is. -/
theorem withQuery (number : Nat) {next : Query → Outcome × Ideal}
    (each : ∀ query ∈ ideal.session.queries, (next query).2.Laid table pretty) :
    (ideal.withQuery number next).2.Laid table pretty := by
  rw [Ideal.withQuery]
  cases found : ideal.session.queries[number]? with
  | none => exact laid
  | some query => exact each query (List.mem_of_getElem? found)

/-- What is done with a handle keeps the layout if it does so for every handle there is. -/
theorem withHandle (number : Nat) {next : Table → Outcome × Ideal}
    (each : ∀ handle ∈ ideal.session.handles, (next handle).2.Laid table pretty) :
    (ideal.withHandle number next).2.Laid table pretty := by
  rw [Ideal.withHandle]
  cases found : ideal.session.handles[number]? with
  | none => exact laid
  | some handle => exact each handle (List.mem_of_getElem? found)

/-- Rows of a query that are replaced in its layout keep the layout. -/
theorem ledgerAfter {query : Query} {next : StoredRow → Option StoredRow}
    (alike : query.table.name = table → ∀ old, ∀ stored ∈ next old, stored.pretty = pretty) :
    (ideal.setLedger query.table.name (query.ledgerAfter ideal.ledgers next)).Laid table pretty :=
  laid.setLedger fun same => (laid.rows_of_eq same).replaceAll (alike same) _

/-- Every step keeps the layout, unless it opens a handle on the table with another one. -/
theorem perform {step : Step}
    (opens : ∀ options, step = .handle table options → options.prettyRows = pretty) :
    (ideal.perform step).2.Laid table pretty := by
  cases step with
  | handle name options =>
      rw [Ideal.perform]
      cases opened : Table.ofName name options with
      | error => exact laid
      | ok handle =>
          obtain ⟨rfl, -⟩ := Table.of_ofName opened
          refine ⟨laid.rows, fun other member named => ?_, laid.queries⟩
          rcases List.mem_append.mp member with old | new
          · exact laid.handles other old named
          · cases List.mem_singleton.mp new
            exact opens options (congrArg (Step.handle · options) named)
  | call handle call =>
      exact laid.withHandle handle fun handle member => laid.setLedger fun same =>
        (laid.rows_of_eq same).after (laid.handles handle member same) call
  | query handle =>
      exact laid.withHandle handle fun handle member => laid.addQuery (laid.handles handle member)
  | filter query criteria | select query columns | limit query bound =>
      refine laid.withQuery query fun query member => laid.addQuery_of_table member ?_
      cases query
      rfl
  | join query foreign accepts =>
      refine laid.withQuery query fun query member => laid.withQuery foreign fun foreign _ => ?_
      refine laid.addQuery_of_table member ?_
      cases query
      rfl
  | get query | count query => exact laid.withQuery query fun _ _ => laid
  | delete query =>
      exact laid.withQuery query fun query _ => laid.ledgerAfter fun _ _ stored kept =>
        absurd kept (Option.not_mem_none stored)
  | set query changes =>
      refine laid.withQuery query fun query member => ?_
      rw [Query.setIn]
      cases accepted : StoredRow.ofRow query.table.options.prettyRows changes with
      | error =>
          dsimp only
          by_cases empty : ((ideal.ledgers query.table.name).selected query.plan).isEmpty = true
          · rw [if_pos empty]
            exact laid.setLedger laid.rows_of_eq
          · rw [if_neg empty]
            exact laid
      | ok stored =>
          refine laid.ledgerAfter fun same => ?_
          rintro old _ ⟨⟩
          exact (StoredRow.of_ofRow accepted).2.trans (laid.queries query member same)

/-- So do all steps of a program. -/
theorem run {program : List Step}
    (opens : ∀ options, .handle table options ∈ program → options.prettyRows = pretty) :
    (ideal.run program).2.Laid table pretty := by
  induction program generalizing ideal with
  | nil => exact laid
  | cons step rest ih =>
      have first := laid.perform fun options same =>
        opens options (same ▸ List.mem_cons_self)
      exact ih first fun options member => opens options (List.mem_cons_of_mem _ member)

end Ideal.Laid

/-- Before its first step, a session has any layout. -/
theorem Ideal.laid_start (table : String) (pretty : Bool) : Ideal.start.Laid table pretty where
  rows _ _ there := nomatch there
  handles _ member := absurd member List.not_mem_nil
  queries _ member := absurd member List.not_mem_nil

namespace Session

variable {medium : Medium} {program : List Step}

/-- In the state that a program reaches which starts without files, whatever probes fail, two
updates of a row after one another answer, and leave stored, what the update with their merge does;
and an update that is made again answers the same and leaves the same stored. -/
theorem updates_fuse (admitted : medium.AdmitsProgram program) {files : Files}
    (fresh : medium.Holds (fun _ => none) files) (probes : List Bool) {table : Table}
    (isTable : FileName.isSegment table.name = true) (admits : medium.AdmitsTable table.name) :
    let reached := ((start.run program).run (.probing files probes)).2
    ∀ {id : RowId} {old first second : Row},
      ((table.read id).run.run reached).1 = .ok (some old) →
      first.firstComposite? = none → second.firstComposite? = none →
      table.Fuses reached id old first second := by
  intro reached id old first second present scalars alsoScalars
  obtain ⟨_, holds, unfaulted, -, rfl, -⟩ :=
    ensures_run_start admitted (Store.probing files probes) fresh rfl
  exact Table.fuses isTable admits holds unfaulted present scalars alsoScalars

/-- After the program in which a person grows older, growing older still and then as old as before
is one update. -/
theorem updates_fuse_growingOlder :
    let reached := ((start.run growingOlder).run (.probing (.memory .empty) [true])).2
    ∃ old, agedPeople.Fuses reached .first old (agedRow 3) (agedRow 2) := by
  intro reached
  have there : ((agedPeople.read .first).run.run reached).1.toOption.join.isSome = true := by
    decide +kernel
  obtain ⟨old, present⟩ : ∃ old, ((agedPeople.read .first).run.run reached).1 = .ok (some old) := by
    generalize ((agedPeople.read .first).run.run reached).1 = answer at there ⊢
    match answer, there with
    | .ok (some row), _ => exact ⟨row, rfl⟩
  exact ⟨old, updates_fuse (Medium.admitsProgram_memory growingOlder) (.memory .empty) [true]
    (by decide) (Medium.admitsTable_memory agedPeople.name) present (by decide) (by decide)⟩

/-- In the state that a program reaches which starts without files, whatever probes fail, a write
of a row of scalars or of none answers what was there, and writing that leaves stored what was
stored before, if all handles on the table have one layout. -/
theorem write_undone (admitted : medium.AdmitsProgram program) {files : Files}
    (fresh : medium.Holds (fun _ => none) files) (probes : List Bool) {table again : Table}
    (isTable : FileName.isSegment table.name = true) (admits : medium.AdmitsTable table.name)
    (opens : ∀ options, .handle table.name options ∈ program →
      options.prettyRows = table.options.prettyRows)
    (named : again.name = table.name)
    (alike : again.options.prettyRows = table.options.prettyRows) :
    let reached := ((start.run program).run (.probing files probes)).2
    ∀ (id : RowId) {next : Option Row}, (∀ row ∈ next, row.firstComposite? = none) →
      ∃ before, ((table.read id).run.run reached).1 = .ok before ∧
        let written := (table.write id next).run.run reached
        let restored := (again.write id before).run.run written.2
        written.1 = .ok before ∧ restored.1 = .ok next ∧
          ∀ path, restored.2.files.stored? path = reached.files.stored? path := by
  intro reached id next valid
  obtain ⟨_, holds, unfaulted, -, rfl, -⟩ :=
    ensures_run_start admitted (Store.probing files probes) fresh rfl
  have laid := (Ideal.laid_start table.name table.options.prettyRows).run opens
  exact Table.write_write isTable admits holds unfaulted laid.rows named alike id valid

/-- On a disk, after the program that joins people with themselves, the first of them can be removed
and written back. -/
theorem write_undone_joiningThemselves :
    let reached := ((start.run joiningThemselves).run (.probing (.disk .empty "data") [])).2
    ∃ before, ((agedPeople.read .first).run.run reached).1 = .ok before ∧
      let written := (agedPeople.write .first none).run.run reached
      let restored := (agedPeople.write .first before).run.run written.2
      written.1 = .ok before ∧ restored.1 = .ok none ∧
        ∀ path, restored.2.files.stored? path = reached.files.stored? path := by
  have isTable : FileName.isSegment agedPeople.name = true := by decide
  have admits : (Medium.disk "data").AdmitsTable agedPeople.name :=
    Medium.admitsTable_disk (by decide) isTable (by decide)
  refine write_undone admitsProgram_joiningThemselves holds_empty_data [] isTable admits
    (fun options opened => ?_) rfl rfl .first nofun
  have same : options = .default := by simpa [joiningThemselves, agedPeople] using opened
  rw [same]
  rfl

end Session

end TableStore
