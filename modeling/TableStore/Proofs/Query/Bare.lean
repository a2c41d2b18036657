/-
# Operations on bare tables

What is done to a table without rows and without indexes stores something in it, or changes no file
at all. Nothing is written that would be gone again when the operation is over.
-/

import TableStore.Proofs.Query.Failure
import TableStore.Proofs.Table.Operation

namespace TableStore

namespace Ledger

variable {ledger : Ledger}

/-- A ledger in which a row has been put is not empty. -/
theorem put_ne_empty (ledger : Ledger) (id : RowId) (stored : StoredRow) :
    ledger.put id (some stored) ≠ .empty := by
  intro same
  have found := ledger.getElem?_put id id (some stored)
  rw [if_pos rfl, same] at found
  cases (Std.ExtTreeMap.getElem?_empty (a := id)).symm.trans found

/-- A ledger with one more column with an index is not empty. -/
theorem addColumn_ne_empty (ledger : Ledger) (column : String)
    (isColumn : FileName.isSegment column = true) :
    ledger.addColumn column isColumn ≠ .empty := by
  intro same
  have listed : column ∈ (ledger.addColumn column isColumn).columns :=
    Std.ExtTreeSet.mem_insert_self
  rw [same] at listed
  exact Std.ExtTreeSet.not_mem_empty listed

end Ledger

section

variable {medium : Medium} {ledgers : String → Ledger} {table : Table} {store : Store}
  (isTable : FileName.isSegment table.name = true) (admits : medium.AdmitsTable table.name)
  (holds : medium.Holds (Ledger.content ledgers) store.files) (unfaulted : store.faults = [])
  (bare : ledgers table.name = .empty)

include isTable admits holds unfaulted bare

namespace Table

/-- No row of a bare table is seen. -/
theorem seen_of_bare (id : RowId) : table.seen store id = .ok none := by
  have missing : store.files.read (table.rowPath id) = .error (.notFound (table.rowPath id)) := by
    have read := holds.read (admits.row isTable id)
    rw [Ledger.content_row, bare] at read
    rw [← Place.path_row table isTable id, read]
    rfl
  rw [seen, unfaulted, missing]
  rfl

/-- No row of a bare table is found. -/
theorem run_require_of_bare (id : RowId) :
    (table.require id).run.run store = (.error (.notFound id), store) := by
  rw [require, Store.run_bind, run_read, seen_of_bare isTable admits holds unfaulted bare]
  rfl

/-- A call on a bare table that does not remove it changes no file, unless it stores something. -/
theorem files_perform_of_bare {call : Call} (notDrop : call ≠ .drop)
    (admitted : call.Admitted medium table)
    (still : Ledger.empty.after table.options call = .empty) :
    ((table.perform call).run.run store).2.files = store.files := by
  have listed : (table.rowIds.run.run store).2.files = store.files := by
    have visible := table.visible_same fun files => files = store.files
    exact (visible.tries_rowIds store store (.refl ⟨rfl, rfl⟩)).2.2.files.2
  have missing := run_require_of_bare isTable admits holds unfaulted bare
  have unseen := seen_of_bare isTable admits holds unfaulted bare
  cases call with
  | insert row =>
      rw [perform, Store.run_return, insert, Store.run_bind, run_checkScalars]
      cases composite : row.firstComposite? with
      | some column => rfl
      | none =>
          obtain ⟨stored, accepted, -⟩ := StoredRow.exists_ofRow table.options.prettyRows composite
          rw [Ledger.after, Ledger.step, accepted, Ledger.freshId_empty] at still
          exact absurd still (Ledger.put_ne_empty _ _ _)
  | read id => rw [perform, Store.run_return, run_read]
  | update id changes =>
      rw [perform, Store.run_return, update, Store.run_bind, run_checkScalars]
      cases changes.firstComposite? with
      | some column => rfl
      | none =>
          dsimp only
          rw [Store.run_bind, missing]
  | erase id => rw [perform, Store.run_return, erase, Store.run_bind, missing]
  | write id row? =>
      rw [perform, Store.run_return]
      cases row? with
      | none =>
          rw [write]
          · change ((table.read id >>= _ : TableM (Option Row)).run.run store).2.files = _
            rw [Store.run_bind, run_read, unseen]
            rfl
          · rintro _ ⟨⟩
      | some row =>
          rw [write, Store.run_bind, run_checkScalars]
          cases composite : row.firstComposite? with
          | some column => rfl
          | none =>
              obtain ⟨stored, accepted, -⟩ :=
                StoredRow.exists_ofRow table.options.prettyRows composite
              rw [Ledger.after, Ledger.step, accepted] at still
              exact absurd still (Ledger.put_ne_empty _ _ _)
  | rowIds => rw [perform, Store.run_return, listed]
  | size => rw [perform, Store.run_return, size, Store.run_return, listed]
  | addIndex column =>
      by_cases isColumn : FileName.isSegment column = true
      · rw [Ledger.after, Ledger.step, dif_pos isColumn] at still
        exact absurd still (Ledger.addColumn_ne_empty _ _ _)
      · rw [perform, Store.run_bind, addIndex, Bool.eq_false_iff.mpr isColumn]
        rfl
  | removeIndex column =>
      rw [perform, Store.run_return, removeIndex]
      by_cases isColumn : FileName.isSegment column = true
      · have nothing :
            Ledger.content ledgers (.index table.name isTable column isColumn) = none := by
          rw [Ledger.content_index, bare]
          exact if_neg Std.ExtTreeSet.not_mem_empty
        have kept := holds.delete_none (Place.path_index table isTable column isColumn ▸
          admitted isColumn) nothing
        rw [Place.path_index] at kept
        have deleted : (Store.delete (table.indexPath column)).run.run store =
            (.error (.notFound (table.indexPath column)), store) := by
          rw [Store.delete, Store.run_checked, unfaulted]
          change ((store.files.delete (table.indexPath column)).1,
            { store with files := (store.files.delete (table.indexPath column)).2 }) = _
          rw [kept]
        rw [isColumn, Bool.not_true, if_neg Bool.false_ne_true, Store.run_bind,
          TableM.run_onFiles?, deleted]
        rfl
      · rw [Bool.eq_false_iff.mpr isColumn]
        rfl
  | drop => exact absurd rfl notDrop

end Table

end

/-- What a query does to its rows in order changes no file if no row is seen. -/
theorem Query.InOrder.files_of_unseen {query : Query} {act : RowId → TableM Row}
    {visit : RowId → Row → TableM Row} {operation : QueryM (List Row)} {store : Store}
    (inOrder : query.InOrder act visit operation store)
    (unseen : ∀ id, query.table.seen store id = .ok none) :
    (operation.run.run store).2.files = store.files := by
  cases prepared : (query.prepare.run.run store).1 with
  | error error => exact (inOrder.refused error prepared).2
  | ok found =>
      obtain ⟨plan, ids, fetched⟩ := found
      obtain ⟨kept, -, -, left, -⟩ := inOrder.carried plan ids fetched prepared
      have refuses : ∀ id, plan.accepts (query.table.seen store) id = false := fun id => by
        rw [Plan.accepts, unseen]
      have none : plan.sound (query.table.seen store) ids = [] := by
        rw [Plan.sound, List.filter_eq_nil_iff]
        exact fun id _ => Bool.eq_false_iff.mp (refuses id)
      rw [left, none, Plan.room_nil, List.mapM_nil]
      exact kept

end TableStore
