/-
# Checked indexes

A check of the indexes compares each of them with a scan over all rows. Of a table with a ledger
it finds nothing to object to, since both are the index of the ledger.
-/

import TableStore.Proofs.Table.Obeys

namespace TableStore

/-- The answer of an operation is the one it runs to. -/
theorem Runs.answer {ε α : Type} {medium : Medium} {operation : StoreM ε α}
    {content after : Content} {outcome : Except ε α} {store : Store}
    (runs : Runs medium [] operation content outcome after)
    (holds : medium.Holds content store.files) (unfaulted : store.faults = []) :
    (operation.run.run store).1 = outcome := by
  obtain ⟨_, _, _, answered, _⟩ := runs store holds unfaulted
  exact answered

/-- The files after an operation are those it runs to. -/
theorem Runs.holds {ε α : Type} {medium : Medium} {operation : StoreM ε α}
    {content after : Content} {outcome : Except ε α} {store : Store}
    (runs : Runs medium [] operation content outcome after)
    (holds : medium.Holds content store.files) (unfaulted : store.faults = []) :
    medium.Holds after (operation.run.run store).2.files := by
  obtain ⟨_, held, _, _, rfl⟩ := runs store holds unfaulted
  exact held

/-- No fault is ordered by an operation. -/
theorem Runs.unfaulted {ε α : Type} {medium : Medium} {operation : StoreM ε α}
    {content after : Content} {outcome : Except ε α} {store : Store}
    (runs : Runs medium [] operation content outcome after)
    (holds : medium.Holds content store.files) (unfaulted : store.faults = []) :
    (operation.run.run store).2.faults = [] := by
  obtain ⟨_, _, kept, _⟩ := runs store holds unfaulted
  exact kept

namespace Table

open Ledger

variable {medium : Medium} {ledgers : String → Ledger} {table : Table}
  (isTable : FileName.isSegment table.name = true) (admits : medium.AdmitsTable table.name)

include isTable

/-- The index of a column that has one is read as that of the ledger. -/
theorem runs_readIndex_index {column : String} (member : column ∈ (ledgers table.name).columns) :
    Runs medium [] (table.readIndex column) (content ledgers)
      (.ok ((ledgers table.name).index column)) (content ledgers) := by
  refine Ensures.of_held fun ⟨files, holds⟩ => ?_
  have isColumn := (ledgers table.name).isColumn column member
  have stored : content ledgers (.index table.name isTable column isColumn) =
      some ((ledgers table.name).index column).toBytes := by
    rw [content_index, if_pos member]
  have admitted : medium.Admits (Place.index table.name isTable column isColumn).path :=
    holds.admits (by rw [stored]; rfl)
  exact runs_readIndex isTable isColumn admitted List.not_mem_nil stored
    (ofBytes_toBytes_index _ column)

include admits

/-- The columns that are listed are those with an index. -/
theorem ensures_indexColumns_columns :
    Ensures medium [] table.indexColumns.run (content ledgers) fun answer left =>
      left = content ledgers ∧ ∃ columns, answer = .ok columns ∧
        ∀ column, column ∈ columns ↔ column ∈ (ledgers table.name).columns := by
  apply (ensures_indexColumns isTable admits List.not_mem_nil).imp
  intro answer left reached
  obtain ⟨kept, columns, answered, _, members⟩ := reached
  refine ⟨kept, columns, answered, fun column => ?_⟩
  rw [members, exists_index_iff isTable]

/-- The index on a column agrees with the rows. -/
theorem runs_verifyIndex {column : String} (member : column ∈ (ledgers table.name).columns) :
    Runs medium [] (table.verifyIndex (ledgers table.name).rows.keys column) (content ledgers)
      (.ok ()) (content ledgers) := by
  have within : checkWithin ((ledgers table.name).index column)
      ((ledgers table.name).index column) = pure () := by
    rw [checkWithin, IndexTable.firstMissing?_eq_none_iff.mpr fun _ _ => id]
  refine Runs.bind (runs_readIndex_index isTable member) ?_
  refine Runs.bind (runs_scanInto_keys isTable admits _ column) ?_
  rw [within]
  exact Runs.bind (.pure ()) (.pure ())

/-- All indexes of a table with a ledger agree with the rows. -/
theorem runs_verifyIndexes :
    Runs medium [] table.verifyIndexes (content ledgers) (.ok ()) (content ledgers) := by
  refine Runs.bind (runs_rowIds_keys isTable admits) ?_
  refine Ensures.run_bind (ensures_indexColumns_columns isTable admits) ?_ ?_
  swap
  · rintro _ _ ⟨-, _, same, -⟩
    cases same
  rintro columns _ ⟨rfl, _, same, members⟩
  cases same
  have each : ∀ column ∈ columns, column ∈ (ledgers table.name).columns :=
    fun column listed => (members column).mp listed
  clear members
  induction columns with
  | nil => exact Ensures.pure ⟨rfl, rfl⟩
  | cons column rest ih =>
      refine Runs.bind (runs_verifyIndex isTable admits (each column List.mem_cons_self)) ?_
      exact ih fun other listed => each other (List.mem_cons_of_mem _ listed)

end Table

end TableStore
